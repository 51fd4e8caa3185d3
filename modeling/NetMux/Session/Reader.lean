import NetMux.Session.Inner

/-!
# Inbound frame loop

`dispatch` routes one decoded frame; `readerNext` is one turn of the reader
loop on the next frame of the connection, decoding included.  An error of
either ends the loop after starting a shutdown.
-/

namespace NetMux

namespace Session

/-- The SYN part of `handle_data`.  The left case is an early return, the
right case falls through to the delivery of the rest of the frame. -/
def handleSyn (s : Session) (id : StreamId) :
    (Except Error Unit × Session) ⊕ Session :=
  if s.role.owns id then
    .inl (.error (.protocol "peer SYN with our parity"), s)
  else if s.peerGone then .inl (.ok (), s.enqueue (.rst id))
  else if s.config.maxStreams ≤ s.registry.len then
    .inl (.ok (), s.enqueue (.rst id))
  else
    let h := s.streams.length
    let inner := StreamInner.new id .remotely s.config
    match s.registry.insert id h with
    | .error _ => .inl (.error (.protocol "duplicate stream id"), s)
    | .ok registry =>
      if s.accept.closed then
        let s :=
          { s with
            registry := StreamRegistry.remove registry id
            streams := s.streams ++ [Cell.new inner .gone] }
        .inl (.ok (), s.enqueue (.rst id))
      else
        .inr
          { s with
            registry := registry
            streams := s.streams ++ [Cell.new inner .queued]
            accept := s.accept.send h }

/-- The payload part of `handle_data` on a registered stream: the ACK flag,
then the payload, then the FIN and RST flags. -/
def deliverTo (stream : StreamInner) (flags : Flags) (payload : Bytes) :
    Except Error Unit × StreamInner × Emit :=
  let stream := if flags.contains Flags.ack then stream.markAcked else stream
  if !payload.isEmpty && !stream.canRecv then
    let (stream, emit) := stream.localReset
    (.error (.protocol "data after FIN"), stream, emit)
  else
    let stream := if payload.isEmpty then stream else stream.pushData payload
    let stream := if flags.contains Flags.fin then stream.remoteFin else stream
    let (stream, emit) :=
      if flags.contains Flags.rst then stream.remoteReset else (stream, .none)
    (.ok (), stream, emit)

/-- The part of `handle_data` after the SYN handling. -/
def handleStream (s : Session) (id : StreamId) (flags : Flags)
    (payload : Bytes) : Except Error Unit × Session :=
  match s.find id with
  | none =>
      if !flags.contains Flags.ack && !flags.contains Flags.rst then
        (.ok (), s.enqueue (.rst id))
      else (.ok (), s)
  | some (h, c) =>
      let (result, inner, emit) := deliverTo c.inner flags payload
      (result, s.update h { c with inner := inner } emit)

def handleData (s : Session) (id : StreamId) (flags : Flags)
    (payload : Bytes) : Except Error Unit × Session :=
  if id = 0 then (.error (.protocol "data on stream id 0"), s)
  else if flags.contains Flags.syn then
    match s.handleSyn id with
    | .inl returned => returned
    | .inr s => s.handleStream id flags payload
  else s.handleStream id flags payload

/-- Increase the send credit of a registered stream. -/
def handleWindowUpdate (s : Session) (id : StreamId) (delta : UInt32) :
    Session :=
  match s.find id with
  | none => s
  | some (h, c) =>
      s.update h { c with inner := c.inner.grantSendCredit delta } .none

def handlePing (s : Session) (flags : Flags) (nonce : UInt32) : Session :=
  if flags.contains Flags.ack then
    { s with keepalive :=
      { s.keepalive with pongs := s.keepalive.pongs.send nonce } }
  else s.enqueue (.pong nonce)

/-- Route one frame. -/
def dispatch (s : Session) (frame : Frame) : Except Error Unit × Session :=
  match frame with
  | .data id flags payload => s.handleData id flags payload
  | .windowUpdate id _ delta => (.ok (), s.handleWindowUpdate id delta)
  | .ping flags nonce => (.ok (), s.handlePing flags nonce)
  | .goAway code => (.ok (), s.notePeerGone.initiateShutdown code)

/-- The code a reader error is reported with. -/
def errorCodeOf : Error → ErrorCode
  | .protocol _ => .protocolError
  | _ => .internalError

/-- Start a shutdown for an error and leave the reader loop. -/
def readerFail (s : Session) (e : Error) : Session :=
  { s.initiateShutdown (errorCodeOf e) with
    readerDone := true
    readerErrors := s.readerErrors ++ [e] }

/-- One turn of the reader loop on the next frame of the connection.  The
middle case cannot arise: a frame is on the wire whole. -/
def readerNext (s : Session) (wireFrame : Frame) : Session :=
  match s.codec.transit wireFrame with
  | .error e => s.readerFail e
  | .ok none => s
  | .ok (some frame) =>
      match s.dispatch frame with
      | (.ok _, s') => s'
      | (.error e, s') => s'.readerFail e

/-- The loop observes the shutdown watch and ends. -/
def readerStop (s : Session) : Session :=
  if s.shutdown then { s with readerDone := true } else s

/-- The peer closed the connection. -/
def readerEof (s : Session) : Session :=
  { s.initiateShutdown .normal with readerDone := true }

end Session

end NetMux
