import NetMux.Concurrent.Signal
import NetMux.Endpoint.Machine

/-!
# Two processes over a reliable FIFO transport

A `Node` is a `Process` whose reader is fed with frames.  The handling of a
`Data` frame is split where other tasks can come in between: the `SYN` part,
the look-up in the registry, the acknowledgement and the rest of the delivery
are steps of their own, and the entry of the registry may be gone by the time
the stream is acknowledged.  Without interference they add up to
`Session.handleStream` (`stream_alone`).  The calls on a stream handle and the
turns of the closer and of the keepalive task are those of `Session`.  A task
that has started a shutdown may go on while the steps of the shutdown are
taken, so the runs include those of the code and more.

A node keeps three histories that no code reads: the frames that were put into
its outbound queue, the frames its reader got, and the streams that were taken
off its accept queue.

A `Net` is a client and a server node and the frames on their way between
them.  A run is any list of steps; a step that is not possible in a state
changes nothing.
-/

namespace NetMux

open Lib Lib.Run

/-! ## The reader -/

/-- The reader's handling of a `Data` frame, by what it does next. -/
inductive HandPc where
  | idle
  /-- The `SYN` part; `SynPc` says where it stands. -/
  | syn (flags : Flags) (payload : Bytes)
  /-- Look the stream up in the registry. -/
  | lookup (id : StreamId) (flags : Flags) (payload : Bytes)
  /-- Mark the stream acknowledged, if the frame says so. -/
  | mark (n : Ref) (flags : Flags) (payload : Bytes)
  /-- Deliver the payload, then the FIN and RST flags. -/
  | deliver (n : Ref) (flags : Flags) (payload : Bytes)
  deriving DecidableEq, Repr

namespace Session

/-- What `deliverTo` does after the ACK flag. -/
def deliverRest (stream : StreamInner) (flags : Flags) (payload : Bytes) :
    Except Error Unit × StreamInner × Emit :=
  if !payload.isEmpty && !stream.canRecv then
    let (stream, emit) := stream.localReset
    (.error (.protocol "data after FIN"), stream, emit)
  else
    let stream := if payload.isEmpty then stream else stream.pushData payload
    let stream := if flags.contains Flags.fin then stream.remoteFin else stream
    let (stream, emit) :=
      if flags.contains Flags.rst then stream.remoteReset else (stream, .none)
    (.ok (), stream, emit)

theorem deliverTo_eq (stream : StreamInner) (flags : Flags) (payload : Bytes) :
    deliverTo stream flags payload =
      deliverRest (if flags.contains Flags.ack then stream.markAcked else stream)
        flags payload := rfl

end Session

namespace Process

/-- The shared session of a process is replaced. -/
def withSession (p : Process) (s : Session) : Process :=
  { p with shared := { p.shared with session := s } }

end Process

/-! ## Nodes -/

structure Node where
  process : Process
  hand : HandPc
  /-- All frames that were put into the outbound queue. -/
  sent : List Frame
  /-- All frames that the reader got. -/
  got : List Frame
  /-- All streams that were taken off the accept queue. -/
  taken : List Ref

/-- What a node does by itself. -/
inductive Deed where
  | move (m : Move)
  /-- The future of a call of `open()` is dropped while it waits. -/
  | openCancel (k : Nat)
  /-- A call on a stream handle, or a turn of the closer or the keepalive
  task. -/
  | act (a : Act)
  | keepaliveTimeout
  /-- The next step of the reader on the frame it has in hand. -/
  | reader
  deriving DecidableEq, Repr

namespace Move

/-- Steps that a node takes by itself; the others are the reader's and the
closer's, which a node has in more detail. -/
def ofNode : Move → Bool
  | .tick .call => true
  | .tick (.openStep _) => true
  | .tick (.openTimer _) => true
  | .tick .shutdownStep => true
  | .tick _ => false
  | _ => true

end Move

namespace Node

def new (cfg : Config) (role : Role) : Node :=
  ⟨Process.new cfg role, .idle, [], [], []⟩

def shared (n : Node) : Shared := n.process.shared

def session (n : Node) : Session := n.process.shared.session

/-- The process moves on.  What it has put into the outbound queue, and what
it has taken off the accept queue, is recorded. -/
def become (n : Node) (p : Process) : Node :=
  { n with
    process := p
    sent := n.sent ++
      p.shared.session.out.queue.drop n.session.out.queue.length
    taken := n.taken ++
      n.session.accept.queue.take
        (n.session.accept.queue.length - p.shared.session.accept.queue.length) }

/-- The task runs. -/
def runs (n : Node) (t : Task) : Bool := (n.process.tasks t).receiver?.isSome

/-- The reader is left with an error: it starts a shutdown and ends. -/
def fail (n : Node) (e : Error) : Node :=
  { n.become ((n.process.step
      (.shutdown (some .reader) (Session.errorCodeOf e))).step (.quit .reader))
    with hand := .idle }

/-- The reader waits for a frame. -/
def ready (n : Node) : Bool := decide (n.hand = .idle) && n.runs .reader

/-- The reader gets a frame. -/
def receive (n : Node) (f : Frame) : Node :=
  let n := { n with got := n.got ++ [f] }
  match f with
  | .data id flags payload =>
      if id = 0 then n.fail (.protocol "data on stream id 0")
      else if flags.contains Flags.syn then
        if n.session.role.owns id then
          n.fail (.protocol "peer SYN with our parity")
        else
          { n with
            process :=
              { n.process with
                shared := { n.shared with reader := .goneCheck id } }
            hand := .syn flags payload }
      else { n with hand := .lookup id flags payload }
  | .windowUpdate id _ delta =>
      n.become (n.process.withSession (n.session.handleWindowUpdate id delta))
  | .ping flags nonce =>
      n.become (n.process.withSession (n.session.handlePing flags nonce))
  | .goAway code =>
      n.become ((n.process.withSession n.session.notePeerGone).step
        (.shutdown (some .reader) code))

/-- The `SYN` part of the frame in hand moves on. -/
def synStep (n : Node) (flags : Flags) (payload : Bytes) : Node :=
  let n' := n.become { n.process with shared := n.shared.step .readerStep }
  match n.shared.reader, n'.shared.reader with
  | .insert _, .idle => n'.fail (.protocol "duplicate stream id")
  | .offer id _, .idle => { n' with hand := .lookup id flags payload }
  | _, .idle => { n' with hand := .idle }
  | _, _ => n'

/-- The frame in hand moves on. -/
def readerStep (n : Node) : Node :=
  match n.hand with
  | .idle => n
  | .syn flags payload => n.synStep flags payload
  | .lookup id flags payload =>
      match n.session.registry.get id with
      | none =>
          if !flags.contains Flags.ack && !flags.contains Flags.rst then
            { n.become (n.process.withSession (n.session.enqueue (.rst id)))
              with hand := .idle }
          else { n with hand := .idle }
      | some h => { n with hand := .mark h flags payload }
  | .mark h flags payload =>
      if flags.contains Flags.ack then
        { n with
          process :=
            { n.process with
              shared := n.shared.onStream h StreamInner.markAcked }
          hand := .deliver h flags payload }
      else { n with hand := .deliver h flags payload }
  | .deliver h flags payload =>
      match n.session.streams[h]? with
      | none => { n with hand := .idle }
      | some c =>
          let (result, inner, emit) :=
            Session.deliverRest c.inner flags payload
          let n := n.become (n.process.withSession
            (n.session.update h { c with inner := inner } emit))
          match result with
          | .ok _ => { n with hand := .idle }
          | .error e => n.fail e

/-- The calls and turns that are those of `Session`.  A task stops with what
it holds once its select loop has ended. -/
def permits (n : Node) : Act → Bool
  | .pollRead _ _ => true
  | .pollWrite _ _ => true
  | .shutdown _ => true
  | .reset _ => true
  | .drop _ => true
  | .closerNext => n.runs .closer
  | .closerStop => decide (n.process.tasks .closer = .ended)
  | .keepaliveTick => n.runs .keepalive
  | .keepalivePong => n.runs .keepalive
  | .keepaliveStop => decide (n.process.tasks .keepalive = .ended)
  | .writerStop => decide (n.process.tasks .writer = .ended)
  | _ => false

/-- The future of a call of `open()` is dropped. -/
def openCancel (n : Node) (k : Nat) : Node :=
  match n.shared.opens[k]? with
  | some (.wait _ h) =>
      { n with
        process :=
          { n.process with shared :=
            { n.shared with
              session := n.session.openCancel h
              opens := n.shared.opens.eraseIdx k } } }
  | _ => n

/-- No reply to a probe in time: the keepalive task starts a shutdown and
ends. -/
def keepaliveTimeout (n : Node) : Node :=
  let s := n.session
  if n.runs .keepalive ∧ s.keepalive.running ∧ s.keepalive.awaiting then
    n.become (((n.process.withSession
      { s with keepalive := Session.keepaliveExit s.keepalive }).step
        (.shutdown (some .keepalive) .timeout)).step (.quit .keepalive))
  else n

def step (n : Node) : Deed → Node
  | .move m => if m.ofNode then n.become (n.process.step m) else n
  | .openCancel k => n.openCancel k
  | .act a =>
      if n.permits a then n.become (n.process.withSession (n.session.perform a))
      else n
  | .keepaliveTimeout => n.keepaliveTimeout
  | .reader => n.readerStep

/-- The writer takes the head of the outbound queue, if there is one: the
frame it puts on the wire, and the node afterwards.  It is `writerNext`, but
the shutdown for a refused frame goes on step by step. -/
def writerTurn (n : Node) : Option Frame × Node :=
  match n.session.writer, n.session.out.queue with
  | .running, f :: rest =>
      let s := { n.session with out := { n.session.out with queue := rest } }
      match s.codec.encode f [] with
      | .ok _ => (some f, { n with process := n.process.withSession s })
      | .error _ =>
          let n :=
            { n with
              process := n.process.withSession
                { s with writer := .draining, encodeFailed := true } }
          (none, n.become (n.process.step
            (.shutdown (some .writer) .internalError)))
  | _, _ =>
      let (f, s) := n.session.writerNext
      (f, { n with process := n.process.withSession s })

/-! ## A frame with nobody in between -/

section Alone

variable {n : Node} {id : StreamId} {flags : Flags} {payload : Bytes} {h : Ref}
  {c : Cell}

theorem step_reader_idle (hidle : n.hand = .idle) : n.step .reader = n := by
  simp only [step, readerStep, hidle]

/-- The look-up finds nothing: the frame is refused or ignored. -/
theorem step_reader_lookup_none (hhand : n.hand = .lookup id flags payload)
    (hget : n.session.registry.get id = none) :
    (n.step .reader).session = (n.session.handleStream id flags payload).2 ∧
      (n.step .reader).hand = .idle := by
  have hfind : n.session.find id = none := by
    simp only [Session.find, hget]
  simp only [step, readerStep, hhand, hget, Session.handleStream, hfind]
  split <;> exact ⟨rfl, rfl⟩

theorem step_reader_lookup_some (hhand : n.hand = .lookup id flags payload)
    (hget : n.session.registry.get id = some h) :
    n.step .reader = { n with hand := .mark h flags payload } := by
  simp only [step, readerStep, hhand, hget]

/-- The mark is the ACK flag of the frame. -/
theorem step_reader_mark (hhand : n.hand = .mark h flags payload)
    (hc : n.session.streams[h]? = some c) :
    (n.step .reader).hand = .deliver h flags payload ∧
      (n.step .reader).session =
        { n.session with
          streams := n.session.streams.set h
            { c with inner :=
              if flags.contains Flags.ack then c.inner.markAcked
              else c.inner } } := by
  have hmark : n.session.streams.modify h
        (fun d => { d with inner := d.inner.markAcked }) =
      n.session.streams.set h { c with inner := c.inner.markAcked } := by
    rw [List.modify_eq_set_getElem?, hc]
    rfl
  simp only [step, readerStep, hhand]
  split
  · exact ⟨rfl, congrArg (fun l => { n.session with streams := l }) hmark⟩
  · exact ⟨rfl, congrArg (fun l => { n.session with streams := l })
      (Keyed.set_same hc).symm⟩

/-- The delivery is all of the frame but its ACK flag. -/
theorem step_reader_deliver (hhand : n.hand = .deliver h flags payload)
    (hc : n.session.streams[h]? = some c)
    (hok : (Session.deliverRest c.inner flags payload).1 = .ok ()) :
    (n.step .reader).hand = .idle ∧
      (n.step .reader).session =
        n.session.update h
          { c with inner := (Session.deliverRest c.inner flags payload).2.1 }
          (Session.deliverRest c.inner flags payload).2.2 := by
  simp only [step, readerStep, hhand, hc, hok, true_and]
  rfl

/-- Both are `deliverTo`. -/
theorem step_reader_marked (hhand : n.hand = .mark h flags payload)
    (hc : n.session.streams[h]? = some c)
    (hok : (Session.deliverTo c.inner flags payload).1 = .ok ()) :
    ((n.step .reader).step .reader).hand = .idle ∧
      ((n.step .reader).step .reader).session =
        n.session.update h
          { c with inner := (Session.deliverTo c.inner flags payload).2.1 }
          (Session.deliverTo c.inner flags payload).2.2 := by
  rw [Session.deliverTo_eq] at hok ⊢
  obtain ⟨hdeliver, hmarked⟩ := step_reader_mark hhand hc
  have hcell : (n.step .reader).session.streams[h]? =
      some { c with inner :=
        if flags.contains Flags.ack then c.inner.markAcked else c.inner } := by
    rw [hmarked]
    exact Keyed.getElem?_set_here hc _
  obtain ⟨hidle, hsession⟩ := step_reader_deliver hdeliver hcell hok
  refine ⟨hidle, hsession.trans ?_⟩
  rw [hmarked]
  simp only [Session.update, List.set_set]

/-- **A `Data` frame with nobody in between is `handleStream`.** -/
theorem stream_alone (hhand : n.hand = .lookup id flags payload)
    (href : ∀ h, n.session.registry.get id = some h →
      ∃ c, n.session.streams[h]? = some c)
    (hok : (n.session.handleStream id flags payload).1 = .ok ()) :
    (run step n (List.replicate 3 .reader)).session =
        (n.session.handleStream id flags payload).2 ∧
      (run step n (List.replicate 3 .reader)).hand = .idle := by
  show (((n.step .reader).step .reader).step .reader).session = _ ∧
    (((n.step .reader).step .reader).step .reader).hand = .idle
  cases hget : n.session.registry.get id with
  | none =>
      obtain ⟨hsession, hidle⟩ := step_reader_lookup_none hhand hget
      rw [step_reader_idle hidle, step_reader_idle hidle]
      exact ⟨hsession, hidle⟩
  | some h =>
      obtain ⟨c, hc⟩ := href h hget
      have hfind : n.session.find id = some (h, c) := by
        simp only [Session.find, hget, hc]
      simp only [Session.handleStream, hfind] at hok ⊢
      rw [step_reader_lookup_some hhand hget]
      have hmarked := step_reader_marked
        (n := { n with hand := .mark h flags payload }) rfl hc hok
      exact ⟨hmarked.2, hmarked.1⟩

end Alone

end Node

/-! ## Both nodes -/

/-- `wire r` holds the frames written by `r` and not yet read by its peer. -/
structure Net where
  nodes : Role → Node
  wire : Role → List Frame

/-- A step of one side. -/
inductive NetAct where
  | own (d : Deed)
  | write
  | read
  deriving DecidableEq, Repr

structure NetAction where
  role : Role
  act : NetAct
  deriving DecidableEq, Repr

namespace Net

def init (cfg : Role → Config) : Net where
  nodes := fun r => Node.new (cfg r) r
  wire := fun _ => []

/-- The reader takes the next frame off the wire, if it waits for one.  A
frame is on the wire whole. -/
def readTurn (N : Net) (r : Role) : Net :=
  match N.wire r.peer with
  | [] => N
  | f :: rest =>
      if (N.nodes r).ready then
        { nodes := Function.update N.nodes r
            (match (N.nodes r).session.codec.transit f with
              | .error e => (N.nodes r).fail e
              | .ok none => N.nodes r
              | .ok (some g) => (N.nodes r).receive g)
          wire := Function.update N.wire r.peer rest }
      else N

def step (N : Net) (a : NetAction) : Net :=
  match a.act with
  | .own d =>
      { N with nodes := Function.update N.nodes a.role ((N.nodes a.role).step d) }
  | .write =>
      let (f, n) := (N.nodes a.role).writerTurn
      { nodes := Function.update N.nodes a.role n
        wire := Function.update N.wire a.role (N.wire a.role ++ f.toList) }
  | .read => N.readTurn a.role

/-- The state after a run from the initial state. -/
def after (cfg : Role → Config) (as : List NetAction) : Net :=
  run step (init cfg) as

end Net

end NetMux
