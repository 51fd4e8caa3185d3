import Mathlib.Logic.Function.Basic
import NetMux.Session.Calls
import NetMux.Stream.Invariant

/-!
# One stream of the connection, seen alone

A connection carries many streams, and every task of both sessions works on
all of them.  A `Pipe` is what is left when one stream id is singled out: for
each side the stream (if it exists), whether the registry has it, and how far
the session has shut down; and for each direction the messages of that stream
which were sent and not yet read, those in the outbound queue behind those on
the wire.

`PipeStep` lists everything that can happen to a pipe.  A step carries an
event, by which the rarer steps can be told from the ordinary ones.
-/

namespace NetMux

/-! ## Messages -/

/-- What the two ends of a stream send each other. -/
inductive Msg where
  | syn
  | ack
  | data (payload : Bytes)
  | fin
  | rst
  | credit (delta : UInt32)
  deriving DecidableEq, Repr

namespace Msg

/-- The frame a message travels in. -/
def frame (i : StreamId) : Msg → Frame
  | syn => .syn i
  | ack => .ack i
  | data payload => .data i Flags.empty payload
  | fin => .fin i
  | rst => .rst i
  | credit delta => .mkWindowUpdate i delta

/-- The bytes a message carries. -/
def payload : Msg → Bytes
  | data payload => payload
  | _ => []

/-- The credit a message grants. -/
def granted : Msg → Nat
  | credit delta => delta.toNat
  | _ => 0

/-- After a final message its sender sends no more data. -/
def final : Msg → Bool
  | fin => true
  | rst => true
  | _ => false

/-- Messages an endpoint without the stream answers with `RST`. -/
def wantsStream : Msg → Bool
  | syn => true
  | data _ => true
  | fin => true
  | _ => false

/-- The bytes carried by a list of messages. -/
def payloads (ms : List Msg) : Bytes := ms.flatMap payload

/-- The credit granted by a list of messages. -/
def grants (ms : List Msg) : Nat := (ms.map granted).sum

@[simp] theorem payloads_nil : payloads [] = [] := rfl

@[simp] theorem payloads_cons (m : Msg) (ms : List Msg) :
    payloads (m :: ms) = m.payload ++ payloads ms := rfl

@[simp] theorem payloads_append (ms ms' : List Msg) :
    payloads (ms ++ ms') = payloads ms ++ payloads ms' := by
  simp [payloads]

@[simp] theorem grants_nil : grants [] = 0 := rfl

@[simp] theorem grants_cons (m : Msg) (ms : List Msg) :
    grants (m :: ms) = m.granted + grants ms := by
  simp [grants]

@[simp] theorem grants_append (ms ms' : List Msg) :
    grants (ms ++ ms') = grants ms + grants ms' := by
  simp [grants]

end Msg

/-- The message of stream `i` a frame carries, if any. -/
def Frame.msg? (i : StreamId) : Frame → Option Msg
  | .data id flags payload =>
      if id = i then
        some
          (if flags = Flags.syn then .syn
          else if flags = Flags.ack then .ack
          else if flags = Flags.fin then .fin
          else if flags = Flags.rst then .rst
          else .data payload)
      else none
  | .windowUpdate id _ delta => if id = i then some (.credit delta) else none
  | .ping _ _ => none
  | .goAway _ => none

/-- The messages of stream `i` among a list of frames. -/
def msgs (i : StreamId) (fs : List Frame) : List Msg := fs.filterMap (Frame.msg? i)

@[simp] theorem msgs_nil (i : StreamId) : msgs i [] = [] := rfl

@[simp] theorem msgs_append (i : StreamId) (fs gs : List Frame) :
    msgs i (fs ++ gs) = msgs i fs ++ msgs i gs := List.filterMap_append

theorem msgs_cons (i : StreamId) (f : Frame) (fs : List Frame) :
    msgs i (f :: fs) = (f.msg? i).toList ++ msgs i fs := by
  cases hm : f.msg? i <;> simp [msgs, hm]

@[simp] theorem Frame.msg?_frame (i j : StreamId) (m : Msg) :
    (m.frame j).msg? i = if j = i then some m else none := by
  cases m <;> rfl

/-- A message is seen on its own stream. -/
@[simp] theorem msgs_frames_self (i : StreamId) (ms : List Msg) :
    msgs i (ms.map (Msg.frame i)) = ms := by
  induction ms with
  | nil => rfl
  | cons m ms ih =>
      simp only [msgs] at ih
      simp [msgs, ih]

/-- A message is not seen on another stream. -/
theorem msgs_frames_ne {i j : StreamId} (h : j ≠ i) (ms : List Msg) :
    msgs i (ms.map (Msg.frame j)) = [] := by
  induction ms with
  | nil => rfl
  | cons m ms ih =>
      simp only [msgs] at ih
      simp [msgs, ih, h]

/-! ## Cells -/

namespace Cell

/-- Someone holds the stream, or is about to. -/
def live (c : Cell) : Bool := c.owner.live

/-- The stream may be taken out of the registry. -/
def released (c : Cell) : Bool := c.inner.state.reset || !c.live

/-- The stream after one `poll_read` on its handle. -/
def read (c : Cell) (remaining : Nat) : Cell :=
  { c with
    inner := (c.inner.pollRead remaining).2.1
    readLog := c.readLog ++ bytesOf (c.inner.pollRead remaining).1 }

/-- The messages sent by a `poll_read`. -/
def readMsgs (c : Cell) (remaining : Nat) : List Msg :=
  msgs c.id (c.inner.pollRead remaining).2.2.frames

/-- The stream after a `poll_write` that accepted bytes. -/
def wrote (c : Cell) (buf : Bytes) : Cell :=
  { c with
    inner :=
      { c.inner with sendWindow :=
        { c.inner.sendWindow with
          available := c.inner.sendWindow.available -
            UInt32.ofNat (c.inner.writeSize buf) } }
    writeLog := c.writeLog ++ buf.take (c.inner.writeSize buf) }

/-- The stream with its write half closed. -/
def writeShut (c : Cell) : Cell :=
  { c with inner :=
    { c.inner with state := { c.inner.state with writeOpen := false } } }

/-- The stream after sending its `FIN`. -/
def finished (c : Cell) : Cell :=
  { c with inner :=
    { c.inner with
      state := { c.inner.state with writeOpen := false }
      finSent := true } }

/-- The messages sent by a local reset. -/
def resetMsgs (c : Cell) : List Msg :=
  if c.inner.state.reset || c.inner.finSent then [] else [.rst]

end Cell

/-! ## Ends and pipes -/

/-- One side of a stream. -/
structure End where
  cell : Option Cell
  registered : Bool
  closing : Bool
  outClosed : Bool
  readerDone : Bool
  encodeFailed : Bool

namespace End

/-- The bytes the handle has read. -/
def readLog (E : End) : Bytes := (E.cell.map Cell.readLog).getD []

/-- The bytes the handle has written. -/
def writeLog (E : End) : Bytes := (E.cell.map Cell.writeLog).getD []

/-- The bytes received and not yet read. -/
def unread (E : End) : Bytes :=
  (E.cell.map fun c => c.inner.recv.contents).getD []

/-- The send credit. -/
def available (E : End) : Nat :=
  (E.cell.map fun c => c.inner.sendWindow.available.toNat).getD 0

/-- The credit owed to the peer. -/
def pending (E : End) : Nat :=
  (E.cell.map fun c => c.inner.recvWindow.pendingCredit.toNat).getD 0

/-- Messages for the stream still reach it. -/
def listening (E : End) : Bool := E.registered && !E.readerDone

/-- A write may still be accepted, now or later. -/
def mayWrite (E : End) : Bool :=
  (E.cell.map fun c => c.live && c.inner.state.writeOpen).getD false

/-- What becomes of messages handed to the outbound queue. -/
def post (E : End) (ms : List Msg) : List Msg :=
  if E.outClosed then [] else ms

end End

/-- The two sides of a stream and what is under way between them.  `chan r`
holds the messages from `r` to its peer. -/
structure Pipe where
  ends : Role → End
  chan : Role → List Msg

namespace Pipe

/-- Replace one side, what it has sent and what it has yet to read. -/
def set (L : Pipe) (r : Role) (E : End) (sent unread : List Msg) : Pipe where
  ends := Function.update L.ends r E
  chan := Function.update (Function.update L.chan r.peer unread) r sent

section Set

variable (L : Pipe) (r : Role) (E : End) (sent unread : List Msg)

@[simp] theorem set_ends_self : (L.set r E sent unread).ends r = E := by
  simp [set]

@[simp] theorem set_ends_peer :
    (L.set r E sent unread).ends r.peer = L.ends r.peer := by
  simp [set]

@[simp] theorem set_chan_self : (L.set r E sent unread).chan r = sent := by
  simp [set]

@[simp] theorem set_chan_peer :
    (L.set r E sent unread).chan r.peer = unread := by
  simp [set]

@[simp] theorem set_peer_ends :
    (L.set r.peer E sent unread).ends r = L.ends r := by
  simp [set]

@[simp] theorem set_peer_chan :
    (L.set r.peer E sent unread).chan r = unread := by
  simp [set]

end Set

/-- A pipe is known by its two sides and what each has sent. -/
theorem ext_sides {L L' : Pipe} (r : Role) (hself : L.ends r = L'.ends r)
    (hpeer : L.ends r.peer = L'.ends r.peer) (hsent : L.chan r = L'.chan r)
    (hunread : L.chan r.peer = L'.chan r.peer) : L = L' := by
  obtain ⟨ends, chan⟩ := L
  obtain ⟨ends', chan'⟩ := L'
  rw [Pipe.mk.injEq]
  constructor
  · funext r'
    rcases Role.eq_or_eq_peer r r' with rfl | rfl
    · exact hself
    · exact hpeer
  · funext r'
    rcases Role.eq_or_eq_peer r r' with rfl | rfl
    · exact hsent
    · exact hunread

end Pipe

/-! ## Steps -/

/-- What a step is known by. -/
inductive Ev where
  | quiet
  /-- A side sends `RST` for a stream it does not have, or gives up on. -/
  | rst (r : Role)
  /-- A side resets its stream. -/
  | reset (r : Role)
  /-- A side's closer takes the stream out of the registry. -/
  | remove (r : Role)
  /-- A side's session begins to shut down. -/
  | shutdown (r : Role)
  deriving DecidableEq

/-- What one side does by itself, and the messages it sends. -/
inductive LocalStep (cfg : Config) (i : StreamId) (r : Role) (E : End) :
    Ev → End → List Msg → Prop where
  | opened (hown : r.owns i = true) (hcell : E.cell = none)
      (hout : E.outClosed = false) :
      LocalStep cfg i r E .quiet
        { E with
          cell := some (Cell.new (StreamInner.new i .locally cfg) .opening)
          registered := true }
        [.syn]
  | connected {c : Cell} (hcell : E.cell = some c)
      (howner : c.owner = .opening) (hack : c.inner.ackReceived = true) :
      LocalStep cfg i r E .quiet
        { E with cell := some { c with owner := .handle } } []
  | abandoned {c : Cell} (keep : Bool) (hcell : E.cell = some c)
      (howner : c.owner = .opening ∨ c.owner = .queued) :
      LocalStep cfg i r E .quiet
        { E with
          cell := some { c with owner := .gone }
          registered := E.registered && keep }
        []
  | timedOut {c : Cell} (hcell : E.cell = some c)
      (howner : c.owner = .opening) :
      LocalStep cfg i r E (.rst r)
        { E with
          cell := some { c with owner := .gone }
          registered := false }
        [.rst]
  | accepted {c : Cell} (hcell : E.cell = some c) (howner : c.owner = .queued)
      (hout : E.outClosed = false) :
      LocalStep cfg i r E .quiet
        { E with cell := some { c with owner := .handle } } [.ack]
  | read {c : Cell} (remaining : Nat) (hcell : E.cell = some c)
      (howner : c.owner = .handle) :
      LocalStep cfg i r E .quiet
        { E with cell := some (c.read remaining) } (c.readMsgs remaining)
  | wrote {c : Cell} (buf : Bytes) (hcell : E.cell = some c)
      (howner : c.owner = .handle) (hopen : c.inner.state.writeOpen = true)
      (hout : E.outClosed = false) :
      LocalStep cfg i r E .quiet
        { E with cell := some (c.wrote buf) }
        [.data (buf.take (c.inner.writeSize buf))]
  | writeFailed {c : Cell} (hcell : E.cell = some c)
      (howner : c.owner = .handle) (hout : E.outClosed = true) :
      LocalStep cfg i r E .quiet { E with cell := some c.writeShut } []
  | finished {c : Cell} (hcell : E.cell = some c) (howner : c.owner = .handle)
      (hopen : c.inner.state.writeOpen = true) :
      LocalStep cfg i r E .quiet { E with cell := some c.finished } [.fin]
  | dropped {c : Cell} (hcell : E.cell = some c) (howner : c.owner = .handle)
      (hshut : c.inner.state.writeOpen = false) :
      LocalStep cfg i r E .quiet
        { E with cell := some { c with owner := .dropped } } []
  | reset {c : Cell} (hcell : E.cell = some c) (howner : c.owner = .handle) :
      LocalStep cfg i r E (.reset r)
        { E with
          cell := some
            { c with inner := c.inner.localReset.1, userReset := true } }
        c.resetMsgs
  | faulted {c : Cell} (hcell : E.cell = some c) (hdone : E.readerDone = true) :
      LocalStep cfg i r E (.reset r)
        { E with cell := some { c with inner := c.inner.localReset.1 } }
        c.resetMsgs
  | shutdown (hopen : E.closing = false) :
      LocalStep cfg i r E (.shutdown r)
        { E with
          closing := true
          registered := false
          cell :=
            if E.registered then
              E.cell.map fun c => { c with inner := c.inner.forceClose }
            else E.cell }
        []
  | readerDone (hclosing : E.closing = true) :
      LocalStep cfg i r E .quiet { E with readerDone := true } []
  | removed {c : Cell} (hcell : E.cell = some c) (hrel : c.released = true) :
      LocalStep cfg i r E (.remove r) { E with registered := false } []

/-- What the next inbound message does to a side, and the messages the side
sends in reply. -/
inductive DeliverStep (cfg : Config) (i : StreamId) (r : Role) (E : End) :
    Msg → Ev → End → List Msg → Prop where
  | created (hcell : E.cell = none) (hdone : E.readerDone = false) :
      DeliverStep cfg i r E .syn .quiet
        { E with
          cell := some (Cell.new (StreamInner.new i .remotely cfg) .queued)
          registered := true }
        []
  | acked {c : Cell} (hcell : E.cell = some c) (hlisten : E.listening = true) :
      DeliverStep cfg i r E .ack .quiet
        { E with cell := some { c with inner := c.inner.markAcked } } []
  | data {c : Cell} {payload : Bytes} (hcell : E.cell = some c)
      (hlisten : E.listening = true)
      (hopen : payload = [] ∨ c.inner.canRecv = true) :
      DeliverStep cfg i r E (.data payload) .quiet
        { E with cell := some { c with inner := c.inner.pushData payload } } []
  | fin {c : Cell} (hcell : E.cell = some c) (hlisten : E.listening = true) :
      DeliverStep cfg i r E .fin .quiet
        { E with cell := some { c with inner := c.inner.remoteFin } } []
  | rst {c : Cell} (hcell : E.cell = some c) (hlisten : E.listening = true) :
      DeliverStep cfg i r E .rst .quiet
        { E with cell := some { c with inner := c.inner.remoteReset.1 } } []
  | credit {c : Cell} {delta : UInt32} (hcell : E.cell = some c)
      (hlisten : E.listening = true) :
      DeliverStep cfg i r E (.credit delta) .quiet
        { E with
          cell := some { c with inner := c.inner.grantSendCredit delta } } []
  | refused {m : Msg} (hreg : E.registered = false)
      (hm : m.wantsStream = true) :
      DeliverStep cfg i r E m (.rst r) E [.rst]
  | ignored {m : Msg}
      (h : (E.registered = false ∧ m.wantsStream = false) ∨
        E.readerDone = true) :
      DeliverStep cfg i r E m .quiet E []

/-- Everything that can happen to a pipe. -/
inductive PipeStep (cfg : Role → Config) (i : StreamId) :
    Ev → Pipe → Pipe → Prop where
  | act {L : Pipe} {e : Ev} {E : End} {ms : List Msg} (r : Role)
      (h : LocalStep (cfg r) i r (L.ends r) e E ms) :
      PipeStep cfg i e L
        (L.set r E (L.chan r ++ (L.ends r).post ms) (L.chan r.peer))
  | deliver {L : Pipe} {e : Ev} {E : End} {m : Msg} {rest ms : List Msg}
      (r : Role) (hchan : L.chan r.peer = m :: rest)
      (h : DeliverStep (cfg r) i r (L.ends r) m e E ms) :
      PipeStep cfg i e L (L.set r E (L.chan r ++ (L.ends r).post ms) rest)
  /-- The writer returns; what is still queued is lost. -/
  | cut {L : Pipe} {sent : List Msg} (r : Role)
      (hclosing : (L.ends r).closing = true) (hsent : sent <+: L.chan r) :
      PipeStep cfg i .quiet L
        (L.set r { L.ends r with outClosed := true } sent (L.chan r.peer))
  /-- The writer's codec refuses a frame. -/
  | lost {L : Pipe} {sent : List Msg} (r : Role)
      (hclosing : (L.ends r).closing = true)
      (hsent : sent.Sublist (L.chan r)) :
      PipeStep cfg i .quiet L
        (L.set r { L.ends r with encodeFailed := true } sent (L.chan r.peer))

end NetMux
