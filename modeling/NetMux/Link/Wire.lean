import NetMux.Concurrent.Writer
import NetMux.Endpoint.Control
import NetMux.Endpoint.Inbound
import NetMux.Link.Integrity

/-!
# Two endpoints over a transport of bytes

A `System` moves whole frames: a writer's turn puts one on the wire and a
reader's turn takes one off.  The connection under a session carries bytes.
The writer feeds a frame to its `FramedWrite`, which encodes it into a buffer;
the buffer reaches the transport in writes of any size; the transport delivers
in pieces of any size; and the reader's `FramedRead` decodes a frame when its
buffer holds one.  Here each of these is a step, and everything else the two
sessions do goes on in between.

Of the transport it is assumed that it loses, reorders and invents nothing and
does not fail; of `FramedWrite` and `FramedRead` what `WriterTask` and
`Inbound` assume.

## Main results

* `Shows.step` — a step on bytes is a step of the `System` or none: a frame is
  on the wire from the moment the writer takes it off its queue until the
  reader has decoded it.
* `bytes_refine_frames` — every reachable state on bytes shows a reachable
  `System`, and so what was read of a stream is the front of what was written.
-/

namespace NetMux

open Lib Lib.Run

/-! ## Endpoints and their buffers -/

/-- An endpoint with the buffers between its session and the transport. -/
structure Port where
  /-- The session and the read buffer. -/
  inbound : Inbound
  /-- The frame the writer has taken off its queue and not yet encoded. -/
  held : Option Frame
  /-- The writer waits for a flush, of one frame or at the end. -/
  flushing : Bool
  /-- What is encoded and not yet written. -/
  sink : Bytes

namespace Port

def new (cfg : Config) (role : Role) : Port := ⟨Inbound.new cfg role, none, false, []⟩

def session (p : Port) : Session := p.inbound.session

/-- Replace the session. -/
def put (p : Port) (s : Session) : Port :=
  { p with inbound := { p.inbound with session := s } }

@[simp] theorem put_session (p : Port) (s : Session) : (p.put s).session = s := rfl

@[simp] theorem put_flushing (p : Port) (s : Session) :
    (p.put s).flushing = p.flushing := rfl

@[simp] theorem put_buffer (p : Port) (s : Session) :
    (p.put s).inbound.buffer = p.inbound.buffer := rfl

/-- The writer takes the next frame off its queue.  When it finds the queue
empty while draining, what is left is the final flush. -/
def recv (p : Port) : Port :=
  if p.held.isSome || p.flushing then p
  else
    match p.session.writer, p.session.out.queue with
    | .running, f :: rest =>
        { p.put (System.popOut p.session rest) with held := some f }
    | .draining, f :: rest =>
        { p.put (System.popOut p.session rest) with held := some f }
    | .draining, [] =>
        { p.put { p.session with writer := .flushed } with flushing := true }
    | _, _ => p

/-- What a frame that the codec refuses does to the session: the select loop
shuts it down, the drain gives up. -/
def refuse (s : Session) : Session :=
  if s.writer = .running then
    { s.initiateShutdown .internalError with
      writer := .draining
      encodeFailed := true }
  else { s with writer := .flushed, encodeFailed := true }

/-- The sink takes the frame, unless it has to be written out first.  Only the
select loop flushes every frame. -/
def encode (p : Port) : Port :=
  match p.held with
  | none => p
  | some f =>
      if FramedWrite.backpressureBoundary ≤ p.sink.length then p
      else
        match p.session.codec.encode f p.sink with
        | .ok sink =>
            { p with
              held := none
              flushing := decide (p.session.writer = .running)
              sink := sink }
        | .error _ => { p.put (refuse p.session) with held := none }

/-- The sink is being written out. -/
def writing (p : Port) : Bool :=
  p.flushing || (p.held.isSome &&
    decide (FramedWrite.backpressureBoundary ≤ p.sink.length))

/-- A flush is done when nothing is left to write. -/
def flushed (p : Port) : Port :=
  if p.sink = [] then { p with flushing := false } else p

/-- The select loop sees the shutdown watch. -/
def stop (p : Port) : Port :=
  if p.held.isSome || p.flushing then p else p.put p.session.writerStop

/-- The writer returns after the final flush. -/
def exit (p : Port) : Port :=
  if p.session.writer = .flushed ∧ p.flushing = false then
    p.put { p.session with writer := .exited, out := p.session.out.close }
  else p

/-- The transport was shut down by the writer. -/
def closed (p : Port) : Bool :=
  !p.flushing && (decide (p.session.writer = .flushed) ||
    decide (p.session.writer = .exited))

/-- The error of `FramedRead` at an end of the connection inside a frame. -/
def bytesRemaining : Error := .io ⟨.other, "bytes remaining on stream"⟩

/-- The reader finds the end of the connection.  Bytes that are no whole frame
are an error of the reader. -/
def eof (p : Port) : Port :=
  if p.session.readerDone then p
  else
    match p.session.codec.decode p.inbound.buffer with
    | (.ok none, _) =>
        if p.inbound.buffer = [] then p.put p.session.readerEof
        else p.put (p.session.readerFail bytesRemaining)
    | _ => p

end Port

/-- What one side can do in one step. -/
inductive WireAct where
  /-- A user, a timer, or a task other than the writer and the reader. -/
  | act (a : Act)
  | recv
  | encode
  /-- The transport takes up to `n` bytes of the sink. -/
  | write (n : Nat)
  | flushed
  | stop
  | exit
  /-- The transport hands over up to `n` bytes to the reader. -/
  | deliver (n : Nat)
  /-- The reader loop takes a turn. -/
  | next
  | eof
  deriving DecidableEq, Repr

structure WireAction where
  role : Role
  act : WireAct
  deriving DecidableEq, Repr

/-- The steps of a session that are not those of its writer and reader; the
reader's stop is among them. -/
def Act.besideLoops : Act → Bool
  | .writerNext => false
  | .writerStop => false
  | .readerNext => false
  | .readerEof => false
  | _ => true

/-- Two endpoints, and for each the bytes the transport has got from it and
not yet delivered. -/
structure Wired where
  ports : Role → Port
  transit : Role → Bytes

namespace Wired

def init (cfg : Role → Config) : Wired where
  ports := fun r => Port.new (cfg r) r
  transit := fun _ => []

/-- Replace one endpoint, the bytes under way from it and those to it. -/
def set (x : Wired) (r : Role) (p : Port) (sent unread : Bytes) : Wired where
  ports := Function.update x.ports r p
  transit := Function.update (Function.update x.transit r.peer unread) r sent

/-- Replace one endpoint. -/
def put (x : Wired) (r : Role) (p : Port) : Wired :=
  x.set r p (x.transit r) (x.transit r.peer)

def step (x : Wired) (a : WireAction) : Wired :=
  let r := a.role
  let p := x.ports r
  match a.act with
  | .act b =>
      if b.besideLoops then x.put r (p.put (p.session.perform b)) else x
  | .recv => x.put r p.recv
  | .encode => x.put r p.encode
  | .write n =>
      if p.writing then
        x.set r { p with sink := p.sink.drop n }
          (x.transit r ++ p.sink.take n) (x.transit r.peer)
      else x
  | .flushed => x.put r p.flushed
  | .stop => x.put r p.stop
  | .exit => x.put r p.exit
  | .deliver n =>
      let inbound := p.inbound.step (.arrive ((x.transit r.peer).take n))
      x.set r { p with inbound := inbound } (x.transit r)
        ((x.transit r.peer).drop n)
  | .next => x.put r { p with inbound := p.inbound.next }
  | .eof =>
      if x.transit r.peer = [] ∧ (x.ports r.peer).closed = true then
        x.put r p.eof
      else x

/-- The state after a run from the initial state. -/
def after (cfg : Role → Config) (as : List WireAction) : Wired :=
  run step (init cfg) as

section Set

variable (x : Wired) (r : Role) (p : Port) (sent unread : Bytes)

@[simp] theorem set_ports_self : (x.set r p sent unread).ports r = p := by
  simp [set]

@[simp] theorem set_ports_peer :
    (x.set r p sent unread).ports r.peer = x.ports r.peer := by
  simp [set]

@[simp] theorem set_transit_self : (x.set r p sent unread).transit r = sent := by
  simp [set]

@[simp] theorem set_transit_peer :
    (x.set r p sent unread).transit r.peer = unread := by
  simp [set]

theorem put_same : x.put r (x.ports r) = x := by
  simp [put, set]

end Set

end Wired

/-! ## What a state on bytes shows of a system -/

namespace Port

/-- The bytes of the frames the writer has taken and not yet written out. -/
def unsent (p : Port) : Bytes :=
  p.sink ++ p.held.toList.flatMap FrameCodec.encoding

/-- What holds of the writer's buffers when its codec refuses nothing: a frame
it holds is going to be encoded, and after the final flush nothing is left. -/
structure Steady (p : Port) : Prop where
  whole : p.session.encodeFailed = false
  fits : ∀ f, p.held = some f → p.session.codec.fits f = true
  idle : p.held ≠ none → p.flushing = false
  phase : p.held ≠ none →
    p.session.writer = .running ∨ p.session.writer = .draining
  empty : p.closed = true → p.sink = []

/-- A writer that holds no frame. -/
theorem Steady.of_none {p : Port} (hwhole : p.session.encodeFailed = false)
    (hidle : p.held = none) (hempty : p.closed = true → p.sink = []) :
    p.Steady where
  whole := hwhole
  fits := fun f hf => by rw [hidle] at hf; cases hf
  idle := fun hheld => absurd hidle hheld
  phase := fun hheld => absurd hidle hheld
  empty := hempty

theorem Steady.held_none {p : Port} (h : p.Steady) (hcl : p.closed = true) :
    p.held = none := by
  by_contra hheld
  rcases h.phase hheld with hw | hw <;> simp [closed, hw] at hcl

end Port

namespace Wired

/-- The bytes between the session of `r` and that of its peer. -/
def between (x : Wired) (r : Role) : Bytes :=
  (x.ports r.peer).inbound.buffer ++ x.transit r ++ (x.ports r).unsent

/-- The sessions are those of the system, and the bytes between them are the
frames on its wire.  A reader that has stopped leaves its bytes alone. -/
structure Shows (x : Wired) (S : System) : Prop where
  ends : ∀ r, S.ends r = (x.ports r).session
  bytes : ∀ r, (x.ports r.peer).session.readerDone = false →
    x.between r = (S.wire r).flatMap FrameCodec.encoding
  steady : ∀ r, (x.ports r).Steady

variable {x : Wired} {S S' : System} {r : Role} {p : Port}

theorem shows_init (cfg : Role → Config) :
    (init cfg).Shows (System.init cfg) where
  ends := fun _ => rfl
  bytes := fun _ _ => rfl
  steady := fun _ => .of_none rfl rfl fun _ => rfl

/-- One endpoint moves on. -/
theorem Shows.set (h : x.Shows S) {sent unread : Bytes}
    (hself : S'.ends r = p.session)
    (hpeer : S'.ends r.peer = S.ends r.peer) (hsteady : p.Steady)
    (hsent : (x.ports r.peer).session.readerDone = false →
      (x.ports r.peer).inbound.buffer ++ sent ++ p.unsent =
        (S'.wire r).flatMap FrameCodec.encoding)
    (hunread : p.session.readerDone = false →
      p.inbound.buffer ++ unread ++ (x.ports r.peer).unsent =
        (S'.wire r.peer).flatMap FrameCodec.encoding) :
    (x.set r p sent unread).Shows S' where
  ends := by
    rw [Role.forall_iff r, set_ports_self, set_ports_peer]
    exact ⟨hself, hpeer.trans (h.ends r.peer)⟩
  bytes := by
    rw [Role.forall_iff r, Role.peer_peer]
    simp only [between, Role.peer_peer, set_ports_self, set_ports_peer,
      set_transit_self, set_transit_peer]
    exact ⟨hsent, hunread⟩
  steady := by
    rw [Role.forall_iff r, set_ports_self, set_ports_peer]
    exact ⟨hsteady, h.steady r.peer⟩

/-- The bytes to `r`, when `r` is still reading. -/
theorem Shows.incoming (h : x.Shows S)
    (hrun : (x.ports r).session.readerDone = false) :
    (x.ports r).inbound.buffer ++ x.transit r.peer ++
        (x.ports r.peer).unsent =
      (S.wire r.peer).flatMap FrameCodec.encoding := by
  have hbytes := h.bytes r.peer
  rw [Role.peer_peer] at hbytes
  have heq := hbytes hrun
  rwa [between, Role.peer_peer] at heq

/-- One endpoint changes its buffers and the system does not move. -/
theorem Shows.stutter (h : x.Shows S) {sent unread : Bytes}
    (hsession : p.session = (x.ports r).session) (hsteady : p.Steady)
    (hsent : sent ++ p.unsent = x.transit r ++ (x.ports r).unsent)
    (hunread : p.inbound.buffer ++ unread =
      (x.ports r).inbound.buffer ++ x.transit r.peer) :
    (x.set r p sent unread).Shows S := by
  refine h.set ?_ rfl hsteady (fun hrun => ?_) fun hrun => ?_
  · rw [hsession]
    exact h.ends r
  · rw [List.append_assoc, hsent, ← List.append_assoc]
    exact h.bytes r hrun
  · rw [hunread]
    exact h.incoming (hsession ▸ hrun)

/-- One session moves on by itself. -/
theorem Shows.put (h : x.Shows S)
    (hbuffer : p.inbound.buffer = (x.ports r).inbound.buffer)
    (hunsent : p.unsent = (x.ports r).unsent) (hsteady : p.Steady)
    (hrun : p.session.readerDone = false →
      (x.ports r).session.readerDone = false) :
    (x.put r p).Shows (S.put r p.session) := by
  refine h.set (System.put_ends_self ..)
    (System.put_ends_ne _ _ (Role.peer_ne r)) hsteady (fun hpeer => ?_)
    fun hself => ?_
  · rw [hunsent]
    exact h.bytes r hpeer
  · rw [hbuffer]
    exact h.incoming (hrun hself)

end Wired

/-! ## Steps beside the loops of writer and reader -/

namespace Control

/-- What such a step leaves alone. -/
structure LoopsKept (c c' : Control) : Prop where
  writer : c'.writer = c.writer
  config : c'.config = c.config
  encodeFailed : c'.encodeFailed = c.encodeFailed
  reading : c'.readerDone = false → c.readerDone = false

variable {c : Control}

theorem LoopsKept.refl (c : Control) : LoopsKept c c :=
  ⟨rfl, rfl, rfl, fun h => h⟩

theorem loops_initiateShutdown (code : ErrorCode) :
    LoopsKept c (c.initiateShutdown code) := by
  unfold initiateShutdown
  split <;> exact ⟨rfl, rfl, rfl, fun h => h⟩

theorem loops_perform {a : Act} (ha : a.besideLoops = true) :
    LoopsKept c (c.perform a) := by
  cases a with
  | writerStop => cases ha
  | close => exact loops_initiateShutdown .normal
  | readerStop =>
      simp only [perform]
      split
      · exact ⟨rfl, rfl, rfl, fun h => by cases h⟩
      · exact .refl c
  | keepaliveTimeout =>
      have hshut := loops_initiateShutdown (c := c) .timeout
      simp only [perform, keepaliveTimeout]
      split
      · exact ⟨hshut.writer, hshut.config, hshut.encodeFailed, hshut.reading⟩
      · exact .refl c
  | _ =>
      simp only [perform, keepaliveTick, keepalivePong, keepaliveStop]
      repeat' split
      all_goals exact ⟨rfl, rfl, rfl, fun h => h⟩

/-- The end of the reader loop keeps the writer's. -/
theorem loops_readerEnd (code : ErrorCode) :
    LoopsKept c (c.readerEnd code) := by
  have hshut := loops_initiateShutdown (c := c) code
  exact ⟨hshut.writer, hshut.config, hshut.encodeFailed, fun h => by cases h⟩

theorem loops_receive (f : Frame) : LoopsKept c (c.receive f) := by
  cases f with
  | ping flags nonce =>
      simp only [receive]
      split <;> exact ⟨rfl, rfl, rfl, fun h => h⟩
  | goAway code =>
      have hshut := loops_initiateShutdown (c := { c with peerGone := true }) code
      exact ⟨hshut.writer, hshut.config, hshut.encodeFailed, hshut.reading⟩
  | _ => exact .refl c

end Control

theorem Session.loops_settle {s : Session} (f : Frame) :
    Control.LoopsKept s.control (settle (s.dispatch f)).control := by
  obtain hc | ⟨-, code, hc⟩ := control_settle (s := s) f
  · exact hc ▸ Control.loops_receive f
  · exact hc ▸ Control.loops_readerEnd code

namespace Port

variable {p : Port} {s : Session}

/-- The session moves on and the writer's loop does not notice. -/
theorem Steady.put (h : p.Steady)
    (hs : Control.LoopsKept p.session.control s.control) :
    (p.put s).Steady where
  whole := hs.encodeFailed.trans h.whole
  fits := fun f hf => by
    have hfits := h.fits f hf
    unfold Session.codec at hfits ⊢
    rwa [← show s.config = p.session.config from hs.config] at hfits
  idle := h.idle
  phase := fun hheld => by
    show s.control.writer = .running ∨ s.control.writer = .draining
    rw [hs.writer]
    exact h.phase hheld
  empty := fun hcl => by
    refine h.empty ?_
    unfold closed at hcl ⊢
    rwa [← show s.writer = p.session.writer from hs.writer]

end Port

namespace Wired

variable {x : Wired} {S : System} {r : Role}

theorem Shows.act (h : x.Shows S) {a : Act} (ha : a.besideLoops = true) :
    (x.put r ((x.ports r).put ((x.ports r).session.perform a))).Shows
      (S.step ⟨r, a⟩) := by
  have hloops := Control.loops_perform (c := (x.ports r).session.control) ha
  rw [← Session.control_perform (by rintro rfl; cases ha)] at hloops
  have hstep : S.step ⟨r, a⟩ = S.put r ((x.ports r).session.perform a) := by
    rw [← h.ends r]
    cases a <;> first | rfl | cases ha
  rw [hstep]
  exact h.put rfl rfl ((h.steady r).put hloops) hloops.reading

end Wired

/-! ## The writer -/

namespace Port

variable {p : Port}

/-- **What taking a frame can do**: nothing, take the head of the queue, or
find the queue empty while draining. -/
theorem recv_cases (p : Port) :
    p.recv = p ∨
    (p.held = none ∧ p.flushing = false ∧
      ((∃ f rest, (p.session.writer = .running ∨
            p.session.writer = .draining) ∧
          p.session.out.queue = f :: rest ∧
          p.recv = { p.put (System.popOut p.session rest) with
            held := some f }) ∨
        (p.session.writer = .draining ∧ p.session.out.queue = [] ∧
          p.recv = { p.put { p.session with writer := .flushed } with
            flushing := true }))) := by
  unfold recv
  split
  · exact .inl rfl
  · rename_i hidle
    simp only [Bool.or_eq_true, not_or, Bool.not_eq_true,
      Option.isSome_eq_false_iff, Option.isNone_iff_eq_none] at hidle
    split
    · rename_i f rest hw hq
      exact .inr ⟨hidle.1, hidle.2, .inl ⟨f, rest, .inl hw, hq, rfl⟩⟩
    · rename_i f rest hw hq
      exact .inr ⟨hidle.1, hidle.2, .inl ⟨f, rest, .inr hw, hq, rfl⟩⟩
    · rename_i hw hq
      exact .inr ⟨hidle.1, hidle.2, .inr ⟨hw, hq, rfl⟩⟩
    · exact .inl rfl

/-- A held frame that fits is encoded, unless the sink is full. -/
theorem encode_cases (h : p.Steady) :
    p.encode = p ∨
    ∃ f, p.held = some f ∧
      p.encode = { p with
        held := none
        flushing := decide (p.session.writer = .running)
        sink := p.sink ++ FrameCodec.encoding f } := by
  unfold encode
  split
  · exact .inl rfl
  · rename_i f hf
    split
    · exact .inl rfl
    · rw [FrameCodec.encode_fits (h.fits f hf)]
      exact .inr ⟨f, hf, rfl⟩

end Port

namespace Wired

variable {x : Wired} {S : System} {r : Role}

/-- A frame that fits is on the wire when the writer has taken it. -/
theorem Shows.taken (h : x.Shows S) {f : Frame} {rest : List Frame}
    (hidle : (x.ports r).held = none) (hflush : (x.ports r).flushing = false)
    (hphase : (x.ports r).session.writer = .running ∨
      (x.ports r).session.writer = .draining)
    (hqueue : (x.ports r).session.out.queue = f :: rest)
    (hfits : (x.ports r).session.codec.fits f = true) :
    (x.put r { (x.ports r).put (System.popOut (x.ports r).session rest) with
      held := some f }).Shows (S.step ⟨r, .writerNext⟩) := by
  have hsize := Nat.not_lt.mpr (of_decide_eq_true hfits)
  have hnext : (S.ends r).writerNext =
      (some f, System.popOut (x.ports r).session rest) := by
    rw [h.ends r]
    rcases hphase with hw | hw
    · rw [System.writerNext_running hw hqueue, if_neg hsize]
    · rw [System.writerNext_draining hw hqueue, if_neg hsize]
  have hturn : S.step ⟨r, .writerNext⟩ =
      S.putWrite r (System.popOut (x.ports r).session rest) [f] := by
    show S.writerTurn r = _
    rw [System.writerTurn_eq, hnext]
    rfl
  rw [hturn]
  refine h.set ?_ ?_ ?_ (fun hrun => ?_) fun hrun => ?_
  · simp [System.putWrite, Port.put, Port.session]
  · simp [System.putWrite]
  · exact
      { whole := (h.steady r).whole
        fits := fun g hg => by cases hg; exact hfits
        idle := fun _ => hflush
        phase := fun _ => hphase
        empty := fun hcl => (h.steady r).empty hcl }
  · have hbytes := h.bytes r hrun
    simp only [between, Port.unsent, hidle, Option.toList_none,
      List.flatMap_nil, List.append_nil] at hbytes
    simp only [System.putWrite, Function.update_self, Port.unsent, Port.put,
      Option.toList_some, List.flatMap_append, ← hbytes, List.append_assoc]
  · have hbytes := h.incoming (r := r) hrun
    simpa [System.putWrite, Port.put] using hbytes

/-- The queue is found empty while draining. -/
theorem Shows.drained (h : x.Shows S) (hidle : (x.ports r).held = none)
    (hw : (x.ports r).session.writer = .draining)
    (hqueue : (x.ports r).session.out.queue = []) :
    (x.put r { (x.ports r).put { (x.ports r).session with writer := .flushed }
      with flushing := true }).Shows (S.step ⟨r, .writerNext⟩) := by
  have hturn : S.step ⟨r, .writerNext⟩ =
      S.put r { (x.ports r).session with writer := .flushed } := by
    show S.writerTurn r = _
    rw [System.writerTurn_eq, h.ends r]
    simp [Session.writerNext, hw, hqueue, System.putWrite_nil]
  rw [hturn]
  exact h.put rfl rfl
    (.of_none (h.steady r).whole hidle fun hcl => by simp [Port.closed] at hcl)
    id

theorem Shows.exit (h : x.Shows S)
    (hw : (x.ports r).session.writer = .flushed)
    (hflush : (x.ports r).flushing = false) :
    (x.put r ((x.ports r).put { (x.ports r).session with
      writer := .exited, out := (x.ports r).session.out.close })).Shows
        (S.step ⟨r, .writerNext⟩) := by
  have hturn : S.step ⟨r, .writerNext⟩ =
      S.put r { (x.ports r).session with
        writer := .exited, out := (x.ports r).session.out.close } := by
    show S.writerTurn r = _
    rw [System.writerTurn_eq, h.ends r]
    simp [Session.writerNext, hw, System.putWrite_nil]
  have hclosed : (x.ports r).closed = true := by simp [Port.closed, hw, hflush]
  have hidle := (h.steady r).held_none hclosed
  rw [hturn]
  exact h.put rfl rfl (.of_none (h.steady r).whole hidle
    fun _ => (h.steady r).empty hclosed) id

/-- The select loop ends; a frame it holds keeps it from looking. -/
theorem Shows.stop (h : x.Shows S) (hidle : (x.ports r).held = none) :
    (x.put r ((x.ports r).put (x.ports r).session.writerStop)).Shows
      (S.step ⟨r, .writerStop⟩) := by
  have hturn : S.step ⟨r, .writerStop⟩ =
      S.put r (x.ports r).session.writerStop := by
    rw [← h.ends r]
    rfl
  have hkept : (x.ports r).session.writerStop.readerDone =
        (x.ports r).session.readerDone ∧
      (x.ports r).session.writerStop.encodeFailed =
        (x.ports r).session.encodeFailed ∧
      ((x.ports r).session.writerStop.writer = (x.ports r).session.writer ∨
        (x.ports r).session.writerStop.writer = .draining) := by
    unfold Session.writerStop
    split
    · exact ⟨rfl, rfl, .inr rfl⟩
    · exact ⟨rfl, rfl, .inl rfl⟩
  rw [hturn]
  refine h.put rfl rfl (.of_none (hkept.2.1.trans (h.steady r).whole) hidle
    fun hcl => (h.steady r).empty ?_) fun hrun => hkept.1 ▸ hrun
  rcases hkept.2.2 with hw | hw
  · simpa [Port.closed, hw] using hcl
  · simp [Port.closed, hw] at hcl

/-! ## Bytes move -/

theorem Shows.encode (h : x.Shows S) : (x.put r (x.ports r).encode).Shows S := by
  obtain hsame | ⟨f, hf, henc⟩ := Port.encode_cases (h.steady r)
  · rw [hsame, put_same]
    exact h
  · have hphase := (h.steady r).phase (by simp [hf])
    rw [henc]
    refine h.stutter rfl (.of_none (h.steady r).whole rfl fun hcl => ?_) ?_ rfl
    · rcases hphase with hw | hw <;> simp [Port.closed, Port.session] at hcl <;>
        simp [Port.session] at hw <;> simp [hw] at hcl
    · simp [Port.unsent, hf]

theorem Shows.write (h : x.Shows S) (n : Nat) :
    (x.set r { x.ports r with sink := (x.ports r).sink.drop n }
      (x.transit r ++ (x.ports r).sink.take n) (x.transit r.peer)).Shows S := by
  refine h.stutter rfl { h.steady r with empty := fun hcl => ?_ } ?_ rfl
  · show (x.ports r).sink.drop n = []
    rw [(h.steady r).empty hcl, List.drop_nil]
  · show x.transit r ++ (x.ports r).sink.take n ++
      ((x.ports r).sink.drop n ++ _) = _
    rw [List.append_assoc, ← List.append_assoc (List.take n _),
      List.take_append_drop]
    rfl

theorem Shows.flushed (h : x.Shows S) :
    (x.put r (x.ports r).flushed).Shows S := by
  unfold Port.flushed
  split
  · rename_i hempty
    exact h.stutter rfl
      { h.steady r with idle := fun _ => rfl, empty := fun _ => hempty } rfl rfl
  · rw [put_same]
    exact h

theorem Shows.deliver (h : x.Shows S) (n : Nat) :
    (x.set r
      { x.ports r with
        inbound :=
          (x.ports r).inbound.step (.arrive ((x.transit r.peer).take n)) }
      (x.transit r) ((x.transit r.peer).drop n)).Shows S := by
  refine h.stutter rfl { h.steady r with } rfl ?_
  show (x.ports r).inbound.buffer ++ List.take n _ ++ List.drop n _ = _
  rw [List.append_assoc, List.take_append_drop]

end Wired

/-! ## The reader -/

/-- **Decoding the front of an encoded frame**: nothing yet, a refusal for its
size, or the frame, which takes exactly its own bytes. -/
theorem FrameCodec.decode_front (c : FrameCodec) {f : Frame}
    (hf : f.FlagsDefined) (hlen : f.payloadLen < 2 ^ 32)
    {src more tail : Bytes} (h : src ++ more = encoding f ++ tail) :
    (∃ rest, c.decode src = (.ok none, rest)) ∨
    (c.maxPayload.toNat < f.payloadLen ∧ ∃ rest, c.decode src =
      (.error (.protocol "frame payload exceeds limit"), rest)) ∨
    (¬ c.maxPayload.toNat < f.payloadLen ∧ ∃ rest,
      c.decode src = (.ok (some f.normalize), rest) ∧ rest ++ more = tail) := by
  have hwhole := c.decode_encoding f tail hf hlen
  rw [← h] at hwhole
  rcases hd : c.decode src with ⟨e | _ | g, rest⟩
  · have happ := decode_error_append hd more
    rw [happ] at hwhole
    split at hwhole
    · rename_i hbig
      cases hwhole
      exact .inr (.inl ⟨hbig, rest, rfl⟩)
    · cases hwhole
  · exact .inl ⟨rest, rfl⟩
  · have happ := decode_some_append hd more
    rw [happ] at hwhole
    split at hwhole
    · cases hwhole
    · rename_i hfits
      cases hwhole
      exact .inr (.inr ⟨hfits, rest, rfl, rfl⟩)

namespace Wired

variable {cfg : Role → Config} {x : Wired} {S S' : System} {r : Role}

/-- The reader moves on. -/
theorem Shows.read (h : x.Shows S) {next : Inbound}
    (hkept : Control.LoopsKept (x.ports r).session.control next.session.control)
    (hself : S'.ends r = next.session)
    (hpeer : S'.ends r.peer = S.ends r.peer) (hwire : S'.wire r = S.wire r)
    (hunread : next.session.readerDone = false →
      next.buffer ++ (x.transit r.peer ++ (x.ports r.peer).unsent) =
        (S'.wire r.peer).flatMap FrameCodec.encoding) :
    (x.put r { x.ports r with inbound := next }).Shows S' := by
  have hsteady : ({ x.ports r with inbound := next } : Port).Steady := by
    have hput := (h.steady r).put hkept
    exact ⟨hput.whole, hput.fits, hput.idle, hput.phase, hput.empty⟩
  refine h.set hself hpeer hsteady (fun hrun => ?_) fun hrun => ?_
  · rw [hwire]
    exact h.bytes r hrun
  · rw [List.append_assoc]
    exact hunread hrun

/-- **A turn of the reader on bytes is a turn on the frame in front of them**,
or there is no whole frame yet. -/
theorem Shows.next (h : x.Shows S) (hgood : System.Good cfg S) :
    ∃ S', (S' = S ∨ S' = S.step ⟨r, .readerNext⟩) ∧
      (x.put r { x.ports r with inbound := (x.ports r).inbound.next }).Shows
        S' := by
  have hstay : (x.ports r).inbound.next = (x.ports r).inbound →
      (x.put r { x.ports r with inbound := (x.ports r).inbound.next }).Shows
        S := by
    intro hsame
    rw [hsame]
    exact (put_same x r).symm ▸ h
  cases hrun : (x.ports r).session.readerDone with
  | true => exact ⟨S, .inl rfl, hstay (by rw [Inbound.next]; exact if_pos hrun)⟩
  | false =>
      have hbytes := h.incoming hrun
      rw [List.append_assoc] at hbytes
      cases hwire : S.wire r.peer with
      | nil =>
          rw [hwire, List.flatMap_nil, List.append_eq_nil_iff] at hbytes
          have hempty : (x.ports r).session.codec.decode
              (x.ports r).inbound.buffer = (.ok none, []) := by
            rw [hbytes.1]
            rfl
          exact ⟨S, .inl rfl, hstay (Inbound.next_none hrun hempty)⟩
      | cons f rest =>
          have hours := hgood.wire r.peer f
            (hwire ▸ List.mem_cons_self)
          have hlen : f.payloadLen < 2 ^ 32 :=
            Nat.lt_of_le_of_lt hours.payloadLen_le (UInt32.toNat_lt _)
          rw [hwire, List.flatMap_cons] at hbytes
          have hstep : S.step ⟨r, .readerNext⟩ =
              S.putRead r ((x.ports r).session.readerNext f) rest := by
            rw [← h.ends r]
            exact System.readerTurn_eq (by rw [h.ends r]; exact hrun) hwire
          have hends : ∀ s, (S.putRead r s rest).ends r = s ∧
              (S.putRead r s rest).ends r.peer = S.ends r.peer ∧
              (S.putRead r s rest).wire r = S.wire r ∧
              (S.putRead r s rest).wire r.peer = rest := by
            intro s
            simp [System.putRead]
          rw [hstep, Session.readerNext_eq _ hours.flagsDefined hlen]
          obtain ⟨left, hd⟩ | ⟨hbig, left, hd⟩ | ⟨hfits, left, hd, hleft⟩ :=
            (x.ports r).session.codec.decode_front hours.flagsDefined hlen
              hbytes
          · exact ⟨S, .inl rfl, hstay (Inbound.next_none hrun hd)⟩
          · refine ⟨_, .inr rfl, ?_⟩
            rw [if_pos hbig, Inbound.next_error hrun hd]
            refine h.read ?_ (hends _).1 (hends _).2.1 (hends _).2.2.1
              fun hdone => by cases hdone
            exact Session.control_readerEnd .. ▸ Control.loops_readerEnd _
          · refine ⟨_, .inr rfl, ?_⟩
            rw [if_neg hfits, Inbound.next_some hrun hd]
            refine h.read (Session.loops_settle _) (hends _).1 (hends _).2.1
              (hends _).2.2.1 fun _ => ?_
            rw [(hends _).2.2.2]
            exact hleft

/-- **The end of the connection is found between two frames**, when every
frame was read. -/
theorem Shows.eof (h : x.Shows S) (hgood : System.Good cfg S)
    (htransit : x.transit r.peer = []) (hcl : (x.ports r.peer).closed = true) :
    ∃ S', (S' = S ∨ S' = S.step ⟨r, .readerEof⟩) ∧
      (x.put r (x.ports r).eof).Shows S' := by
  unfold Port.eof
  split
  · exact ⟨S, .inl rfl, (put_same x r).symm ▸ h⟩
  rename_i hrun
  rw [Bool.not_eq_true] at hrun
  split
  rotate_left
  · exact ⟨S, .inl rfl, (put_same x r).symm ▸ h⟩
  rename_i left hd
  have hbytes := h.incoming hrun
  rw [htransit, Port.unsent, (h.steady r.peer).empty hcl,
    (h.steady r.peer).held_none hcl, Option.toList_none, List.flatMap_nil,
    List.append_nil, List.append_nil, List.append_nil] at hbytes
  have hwire : S.wire r.peer = [] := by
    -- a frame that is there whole is decoded or refused
    cases hw : S.wire r.peer with
    | nil => rfl
    | cons f rest =>
        have hours := hgood.wire r.peer f (hw ▸ List.mem_cons_self)
        have hfront := (x.ports r).session.codec.decode_encoding f
          (rest.flatMap FrameCodec.encoding) hours.flagsDefined
          (Nat.lt_of_le_of_lt hours.payloadLen_le (UInt32.toNat_lt _))
        rw [← List.flatMap_cons, ← hw, ← hbytes, hd] at hfront
        split at hfront <;> cases hfront
  rw [hwire, List.flatMap_nil] at hbytes
  rw [if_pos hbytes]
  refine ⟨S.put r (x.ports r).session.readerEof, .inr ?_, ?_⟩
  · have hpeer : (S.ends r.peer).writer = .flushed ∨
        (S.ends r.peer).writer = .exited := by
      rw [h.ends r.peer]
      simp only [Port.closed, Bool.and_eq_true, Bool.or_eq_true,
        decide_eq_true_eq] at hcl
      exact hcl.2
    show _ = S.eofTurn r
    unfold System.eofTurn
    rw [h.ends r, if_pos ⟨hrun, hwire, hpeer⟩]
  · refine h.put rfl rfl ((h.steady r).put ?_) fun hdone => by cases hdone
    exact Session.control_readerEnd .. ▸ Control.loops_readerEnd _

/-! ## Whole runs -/

/-- The writer takes no frame that its codec refuses. -/
def takesFit (x : Wired) (a : WireAction) : Bool :=
  match a.act with
  | .recv =>
      (x.ports a.role).session.out.queue.head?.all
        (x.ports a.role).session.codec.fits
  | _ => true

/-- **A step on bytes is a step of the system, or none.** -/
theorem Shows.step (h : x.Shows S) (hgood : System.Good cfg S)
    {a : WireAction} (hfit : x.takesFit a = true) :
    ∃ S', (S' = S ∨ ∃ b, S' = S.step b) ∧ (x.step a).Shows S' := by
  obtain ⟨r, act⟩ := a
  cases act with
  | act b =>
      simp only [Wired.step]
      split
      · rename_i hb
        exact ⟨_, .inr ⟨_, rfl⟩, h.act hb⟩
      · exact ⟨S, .inl rfl, h⟩
  | recv =>
      simp only [Wired.step]
      obtain hsame | ⟨hidle, hflush, ⟨f, rest, hphase, hqueue, htaken⟩ |
        ⟨hphase, hqueue, hempty⟩⟩ := (x.ports r).recv_cases
      · rw [hsame, put_same]
        exact ⟨S, .inl rfl, h⟩
      · have hfits : (x.ports r).session.codec.fits f = true := by
          simpa [takesFit, hqueue] using hfit
        rw [htaken]
        exact ⟨_, .inr ⟨_, rfl⟩, h.taken hidle hflush hphase hqueue hfits⟩
      · rw [hempty]
        exact ⟨_, .inr ⟨_, rfl⟩, h.drained hidle hphase hqueue⟩
  | encode => exact ⟨S, .inl rfl, h.encode⟩
  | write n =>
      simp only [Wired.step]
      split
      · exact ⟨S, .inl rfl, h.write n⟩
      · exact ⟨S, .inl rfl, h⟩
  | flushed => exact ⟨S, .inl rfl, h.flushed⟩
  | stop =>
      simp only [Wired.step, Port.stop]
      split
      · rw [put_same]
        exact ⟨S, .inl rfl, h⟩
      · rename_i hidle
        simp only [Bool.or_eq_true, not_or, Bool.not_eq_true,
          Option.isSome_eq_false_iff, Option.isNone_iff_eq_none] at hidle
        exact ⟨_, .inr ⟨_, rfl⟩, h.stop hidle.1⟩
  | exit =>
      simp only [Wired.step, Port.exit]
      split
      · rename_i hlast
        exact ⟨_, .inr ⟨_, rfl⟩, h.exit hlast.1 hlast.2⟩
      · rw [put_same]
        exact ⟨S, .inl rfl, h⟩
  | deliver n => exact ⟨S, .inl rfl, h.deliver n⟩
  | next =>
      obtain ⟨S', hS', hshows⟩ := h.next (r := r) hgood
      exact ⟨S', hS'.imp_right fun heq => ⟨_, heq⟩, hshows⟩
  | eof =>
      simp only [Wired.step]
      split
      · rename_i hend
        obtain ⟨S', hS', hshows⟩ := h.eof (r := r) hgood hend.1 hend.2
        exact ⟨S', hS'.imp_right fun heq => ⟨_, heq⟩, hshows⟩
      · exact ⟨S, .inl rfl, h⟩

/-- Below the codec's ceiling every frame that a session enqueues fits. -/
theorem Shows.fits (h : x.Shows S) (hgood : System.Good cfg S)
    (hlimit : ∀ r, (cfg r).maxFrameSize.toNat ≤ absoluteMaxPayload.toNat)
    (a : WireAction) : x.takesFit a = true := by
  obtain ⟨r, act⟩ := a
  cases act with
  | recv =>
      simp only [takesFit]
      cases hq : (x.ports r).session.out.queue with
      | nil => rfl
      | cons f rest =>
          have hwf := hgood.wf r
          rw [h.ends r] at hwf
          have hle := (hwf.out f (by rw [hq]; exact List.mem_cons_self ..)).payloadLen_le
          simp only [List.head?_cons, Option.all_some, FrameCodec.fits,
            Session.codec, hwf.config, FrameCodec.new_maxPayload,
            decide_eq_true_eq]
          exact Nat.le_min.mpr ⟨hle, hle.trans (hlimit r)⟩
  | _ => rfl

/-- The state shows a reachable system. -/
def Sound (cfg : Role → Config) (x : Wired) : Prop :=
  ∃ S, System.Reachable cfg S ∧ x.Shows S

theorem sound_init (cfg : Role → Config) : Sound cfg (init cfg) :=
  ⟨_, ⟨[], rfl⟩, shows_init cfg⟩

theorem Sound.step (h : Sound cfg x) {a : WireAction}
    (hfit : x.takesFit a = true) : Sound cfg (x.step a) := by
  obtain ⟨S, ⟨as, rfl⟩, hshows⟩ := h
  obtain ⟨S', rfl | ⟨b, rfl⟩, hshows'⟩ :=
    hshows.step (System.good_after cfg as) hfit
  · exact ⟨_, ⟨as, rfl⟩, hshows'⟩
  · exact ⟨_, ⟨as ++ [b], run_append ..⟩, hshows'⟩

/-- **A transport of bytes carries the frames of a system.**  However the
writers, the transport and the readers cut the bytes, and whatever else the two
sessions do meanwhile: as long as no writer takes a frame that its codec
refuses, the two sessions are those of a reachable system, the bytes between
them are the encodings of the frames on its wire, and so what was read of a
stream is the front of what was written on the other side, with nothing missing
while the stream is held and neither session closes.  When both frame limits
are at most 16 MiB, no writer ever takes such a frame. -/
theorem bytes_refine_frames (cfg : Role → Config) (as : List WireAction) :
    (Along step (fun x a => x.takesFit a = true) (init cfg) as →
      ∃ S, System.Reachable cfg S ∧ (after cfg as).Shows S ∧
        ∀ r, ∀ c ∈ ((after cfg as).ports r.peer).session.streams,
          ∀ d ∈ ((after cfg as).ports r).session.streams, d.id = c.id →
            c.readLog <+: d.writeLog ∧
            (c.Held → ((after cfg as).ports r).session.isClosing = false →
              ((after cfg as).ports r.peer).session.isClosing = false →
              c.readLog ++ c.inner.recv.contents ++ S.dataUnderWay r c.id =
                d.writeLog)) ∧
    ((∀ r, (cfg r).maxFrameSize.toNat ≤ absoluteMaxPayload.toNat) →
      Along step (fun x a => x.takesFit a = true) (init cfg) as) := by
  constructor
  · intro hfit
    obtain ⟨S, hS, hshows⟩ : Sound cfg (after cfg as) :=
      run_invariant step (I := Sound cfg) (fun _ _ hx hok => hx.step hok) as
        (init cfg) (sound_init cfg) hfit
    have hgood := hS.good
    refine ⟨S, hS, hshows, fun r c hc d hd hid => ?_⟩
    have hfail : (S.ends r).encodeFailed = false := by
      rw [hshows.ends r]
      exact (hshows.steady r).whole
    rw [← hshows.ends r] at hd ⊢
    rw [← hshows.ends r.peer] at hc ⊢
    refine ⟨hgood.readLog_prefix hfail hc hd hid, fun hheld hcl hcl' => ?_⟩
    exact hgood.complete hcl hcl' hfail hc hd hid hheld
  · intro hlimit
    refine along_of_invariant step (I := Sound cfg) ?_
      (fun _ _ hx hok => hx.step hok) as (init cfg) (sound_init cfg)
    rintro x a ⟨S, hS, hshows⟩
    exact hshows.fits hS.good hlimit a

/-- The client opens a stream and writes three bytes; its `SYN` and its data
cross the transport in pieces that end inside headers. -/
def choppedRun : List WireAction :=
  [⟨.client, .act .openStart⟩, ⟨.client, .recv⟩, ⟨.client, .encode⟩,
    ⟨.client, .write 5⟩, ⟨.server, .deliver 3⟩, ⟨.server, .next⟩,
    ⟨.client, .write 7⟩, ⟨.client, .flushed⟩, ⟨.server, .deliver 9⟩,
    ⟨.server, .next⟩, ⟨.server, .act .accept⟩, ⟨.server, .recv⟩,
    ⟨.server, .encode⟩, ⟨.server, .write 12⟩, ⟨.server, .flushed⟩,
    ⟨.client, .deliver 12⟩, ⟨.client, .next⟩, ⟨.client, .act (.openPoll 0)⟩,
    ⟨.client, .act (.pollWrite 0 [1, 2, 3])⟩, ⟨.client, .recv⟩,
    ⟨.client, .encode⟩, ⟨.client, .write 13⟩, ⟨.server, .deliver 13⟩,
    ⟨.server, .next⟩, ⟨.client, .write 2⟩, ⟨.server, .deliver 1⟩,
    ⟨.server, .next⟩, ⟨.server, .deliver 1⟩, ⟨.server, .next⟩,
    ⟨.server, .act (.pollRead 0 2)⟩]

theorem bytes_refine_frames_choppedRun :
    ∃ c ∈ ((after (fun _ => Config.default) choppedRun).ports
        .server).session.streams,
      ∃ d ∈ ((after (fun _ => Config.default) choppedRun).ports
        .client).session.streams,
      c.readLog = [1, 2] ∧ d.writeLog = [1, 2, 3] ∧ c.readLog <+: d.writeLog := by
  have hstate : ∃ c ∈ ((after (fun _ => Config.default) choppedRun).ports
        .server).session.streams,
      ∃ d ∈ ((after (fun _ => Config.default) choppedRun).ports
        .client).session.streams,
      d.id = c.id ∧ c.readLog = [1, 2] ∧ d.writeLog = [1, 2, 3] := by
    decide +kernel
  obtain ⟨c, hc, d, hd, hid, hread, hwrite⟩ := hstate
  have hboth := bytes_refine_frames (fun _ => Config.default) choppedRun
  obtain ⟨S, -, -, hstreams⟩ := hboth.1 (hboth.2 fun _ => by decide)
  exact ⟨c, hc, d, hd, hread, hwrite, (hstreams .client c hc d hd hid).1⟩

end Wired

end NetMux
