import NetMux.Session.Reader

/-!
# User calls and the remaining background tasks

`open()` is split at its only await point: `openStart` runs up to it,
`openPoll` polls the wait for the ACK, `openTimeout` is the timer firing and
`openCancel` drops the pending future.  `accept()` is one poll.  The calls on
a stream handle take the handle's reference and do nothing when there is no
such live handle.
-/

namespace NetMux

namespace Session

/-! ## Opening and accepting -/

/-- `usize::MAX` on a 64-bit target. -/
def usizeMax : Nat := 2 ^ 64 - 1

/-- `open()` up to waiting for the ACK. -/
def openStart (s : Session) : Except Error Ref × Session :=
  if s.isClosing || s.peerGone then (.error .sessionClosed, s)
  else if s.config.maxStreams ≤ s.registry.len then
    (.error (.tooManyStreams s.config.maxStreams), s)
  else
    match s.idAlloc.allocate with
    | none => (.error (.tooManyStreams usizeMax), s)
    | some (id, idAlloc) =>
      let s := { s with idAlloc := idAlloc }
      let h := s.streams.length
      let inner := StreamInner.new id .locally s.config
      match s.registry.insert id h with
      | .error e =>
          (.error e, { s with streams := s.streams ++ [Cell.new inner .gone] })
      | .ok registry =>
        if s.out.closed then
          (.error .sessionClosed,
            { s with
              streams := s.streams ++ [Cell.new inner .gone]
              registry := StreamRegistry.remove registry id })
        else
          (.ok h,
            { s with
              registry := registry
              streams := s.streams ++ [Cell.new inner .opening]
              out := s.out.send (.syn id) })

/-- The stream of a pending `open()` call. -/
def pendingOpen (s : Session) (h : Ref) : Option Cell :=
  match s.streams[h]? with
  | some c => if c.owner = .opening then some c else none
  | none => none

theorem pendingOpen_some {s : Session} {h : Ref} {c : Cell}
    (hc : s.pendingOpen h = some c) :
    s.streams[h]? = some c ∧ c.owner = .opening := by
  unfold pendingOpen at hc
  cases hd : s.streams[h]? with
  | none => simp [hd] at hc
  | some d =>
      simp only [hd, Option.ite_none_right_eq_some] at hc
      obtain ⟨howner, hdc⟩ := hc
      obtain rfl := Option.some.inj hdc
      exact ⟨rfl, howner⟩

/-- Give up on a pending `open()`: drop its registry entry and its
reference. -/
def abandonOpen (s : Session) (h : Ref) (c : Cell) : Session :=
  { s with
    registry := s.registry.remove c.id
    streams := s.streams.set h { c with owner := .gone } }

/-- Poll a pending `open()` once. -/
def openPoll (s : Session) (h : Ref) : Poll (Except Error Ref) × Session :=
  match s.pendingOpen h with
  | none => (.pending, s)
  | some c =>
    match c.inner.waitAcked with
    | .pending => (.pending, s)
    | .ready (.ok ()) =>
        (.ready (.ok h),
          { s with streams := s.streams.set h { c with owner := .handle } })
    | .ready (.error e) => (.ready (.error e), s.abandonOpen h c)

/-- The open timer fires.  The wait is polled first, so an `open()` that can
complete does. -/
def openTimeout (s : Session) (h : Ref) : Poll (Except Error Ref) × Session :=
  match s.pendingOpen h with
  | none => (.pending, s)
  | some c =>
    match c.inner.waitAcked with
    | .ready _ => s.openPoll h
    | .pending =>
        (.ready (.error .timeout),
          (s.enqueue (.rst c.id)).abandonOpen h c)

/-- The future of a pending `open()` is dropped; no code of the crate runs. -/
def openCancel (s : Session) (h : Ref) : Session :=
  match s.pendingOpen h with
  | none => s
  | some c =>
      { s with streams := s.streams.set h { c with owner := .gone } }

/-- Poll `accept()` once. -/
def acceptPoll (s : Session) : Poll (Except Error Ref) × Session :=
  if s.isClosing then (.ready (.error .sessionClosed), s)
  else
    match s.accept.queue with
    | [] => (.pending, s)
    | h :: rest =>
      let s := { s with accept := { s.accept with queue := rest } }
      match s.streams[h]? with
      | none => (.pending, s)
      | some c =>
        if s.out.closed then
          (.ready (.error .sessionClosed),
            { s with streams := s.streams.set h { c with owner := .gone } })
        else
          (.ready (.ok h),
            { s with
              streams := s.streams.set h { c with owner := .handle }
              out := s.out.send (.ack c.id) })

/-! ## Calls on a stream handle -/

/-- The stream behind a live handle. -/
def handleAt (s : Session) (h : Ref) : Option Cell :=
  match s.streams[h]? with
  | some c => if c.owner = .handle then some c else none
  | none => none

theorem handleAt_some {s : Session} {h : Ref} {c : Cell}
    (hc : s.handleAt h = some c) :
    s.streams[h]? = some c ∧ c.owner = .handle := by
  unfold handleAt at hc
  cases hd : s.streams[h]? with
  | none => simp [hd] at hc
  | some d =>
      simp only [hd, Option.ite_none_right_eq_some] at hc
      obtain ⟨howner, hdc⟩ := hc
      obtain rfl := Option.some.inj hdc
      exact ⟨rfl, howner⟩

/-- The number of bytes a finished write accepted. -/
def countOf : Poll (Except IoError Nat) → Nat
  | .ready (.ok n) => n
  | _ => 0

def pollRead (s : Session) (h : Ref) (remaining : Nat) : Session :=
  match s.handleAt h with
  | none => s
  | some c =>
      let (result, inner, emit) := c.inner.pollRead remaining
      s.update h
        { c with inner := inner, readLog := c.readLog ++ bytesOf result } emit

def pollWrite (s : Session) (h : Ref) (buf : Bytes) : Session :=
  match s.handleAt h with
  | none => s
  | some c =>
      let (result, inner, emit) := c.inner.pollWrite (!s.out.closed) buf
      s.update h
        { c with
          inner := inner
          writeLog := c.writeLog ++ buf.take (countOf result) } emit

/-- `poll_shutdown`. -/
def pollShutdown (s : Session) (h : Ref) : Session :=
  match s.handleAt h with
  | none => s
  | some c =>
      let (inner, emit) := c.inner.localFin
      s.update h { c with inner := inner } emit

/-- `Stream::reset`. -/
def reset (s : Session) (h : Ref) : Session :=
  match s.handleAt h with
  | none => s
  | some c =>
      let (inner, emit) := c.inner.localReset
      s.update h { c with inner := inner, userReset := true } emit

/-- Dropping the handle. -/
def dropHandle (s : Session) (h : Ref) : Session :=
  match s.handleAt h with
  | none => s
  | some c =>
      let (inner, emit) := c.inner.onUserDrop
      s.update h { c with inner := inner, owner := .dropped } emit

/-- `close()` up to joining the background tasks. -/
def close (s : Session) : Session := s.initiateShutdown .normal

/-! ## Writer, closer and keepalive tasks -/

/-- The writer takes the head of the outbound queue, if there is one: the
frame it puts on the wire, and the session afterwards.  A frame its codec
refuses is lost and, in the select loop, starts a shutdown.

Each frame goes on the wire by itself.  In the source the frames of the drain
are fed to a sink and flushed at its end, and a refused frame ends the drain
without the flush, so that those before it may be lost, too; `Port` has the
sink, and what it gives up then. -/
def writerNext (s : Session) : Option Frame × Session :=
  match s.writer, s.out.queue with
  | .running, [] => (none, s)
  | .running, f :: rest =>
      let s := { s with out := { s.out with queue := rest } }
      match s.codec.encode f [] with
      | .ok _ => (some f, s)
      | .error _ =>
          (none,
            { s.initiateShutdown .internalError with
              writer := .draining
              encodeFailed := true })
  | .draining, [] => (none, { s with writer := .flushed })
  | .draining, f :: rest =>
      let s := { s with out := { s.out with queue := rest } }
      match s.codec.encode f [] with
      | .ok _ => (some f, s)
      | .error _ => (none, { s with writer := .flushed, encodeFailed := true })
  | .flushed, _ => (none, { s with writer := .exited, out := s.out.close })
  | .exited, _ => (none, s)

/-- The select loop observes the shutdown watch and ends. -/
def writerStop (s : Session) : Session :=
  if s.writer = .running ∧ s.shutdown then { s with writer := .draining }
  else s

/-- The closer takes one id and removes it from the registry. -/
def closerNext (s : Session) : Session :=
  match s.closer.queue with
  | [] => s
  | id :: rest =>
      { s with
        closer := { s.closer with queue := rest }
        registry := s.registry.remove id }

/-- The closer observes the shutdown watch and ends. -/
def closerStop (s : Session) : Session :=
  if s.shutdown then { s with closer := s.closer.close } else s

/-- The keepalive task returns and drops its queue of replies. -/
def keepaliveExit (k : Keepalive) : Keepalive :=
  { k with running := false, pongs := k.pongs.close }

/-- The keepalive ticker fires: send a probe with the next nonce. -/
def keepaliveTick (s : Session) : Session :=
  if s.keepalive.running ∧ ¬ s.keepalive.awaiting then
    let nonce := s.keepalive.nonce + 1
    let keepalive := { s.keepalive with nonce := nonce }
    if s.out.closed then { s with keepalive := keepaliveExit keepalive }
    else
      { s with
        out := s.out.send (.mkPing nonce)
        keepalive := { keepalive with awaiting := true } }
  else s

/-- The keepalive task takes one reply off its queue.  Once the reader is
gone an empty queue also ends the wait. -/
def keepalivePong (s : Session) : Session :=
  if s.keepalive.running ∧ s.keepalive.awaiting then
    match s.keepalive.pongs.queue with
    | [] =>
        if s.readerDone then
          { s with keepalive := { s.keepalive with awaiting := false } }
        else s
    | nonce :: rest =>
        { s with keepalive :=
          { s.keepalive with
            pongs := { s.keepalive.pongs with queue := rest }
            awaiting := nonce != s.keepalive.nonce } }
  else s

/-- No reply in time. -/
def keepaliveTimeout (s : Session) : Session :=
  if s.keepalive.running ∧ s.keepalive.awaiting then
    let s := s.initiateShutdown .timeout
    { s with keepalive := keepaliveExit s.keepalive }
  else s

/-- The keepalive task observes the shutdown watch and ends. -/
def keepaliveStop (s : Session) : Session :=
  if s.keepalive.running ∧ ¬ s.keepalive.awaiting ∧ s.shutdown then
    { s with keepalive := keepaliveExit s.keepalive }
  else s

end Session

end NetMux
