import Mathlib.Logic.Function.Basic
import NetMux.Lib.Run
import NetMux.Session.Calls

/-!
# Two endpoints over a reliable FIFO transport

A `System` is a client and a server session and, for each of them, the
frames it has put on the wire that the other has not read.  One step is one
user call, one frame moved by a writer, one frame dispatched by a reader, one
id removed by a closer, or a move of a task or timer.  A run is any list of
such steps; a step that is not possible in a state changes nothing.
-/

namespace NetMux

open Lib.Run

/-- What one side can do in one step. -/
inductive Act where
  | openStart
  | openPoll (h : Ref)
  | openTimeout (h : Ref)
  | openCancel (h : Ref)
  | accept
  | pollRead (h : Ref) (remaining : Nat)
  | pollWrite (h : Ref) (buf : Bytes)
  | shutdown (h : Ref)
  | reset (h : Ref)
  | drop (h : Ref)
  | close
  | writerNext
  | writerStop
  | readerNext
  | readerStop
  | readerEof
  | closerNext
  | closerStop
  | keepaliveTick
  | keepalivePong
  | keepaliveTimeout
  | keepaliveStop
  deriving DecidableEq, Repr

/-- A step of the system: who moves, and how. -/
structure Action where
  role : Role
  act : Act
  deriving DecidableEq, Repr

/-- Both endpoints and the two directions of the transport.  `wire r` holds
the frames written by `r` and not yet read by its peer. -/
structure System where
  ends : Role → Session
  wire : Role → List Frame

namespace System

/-- Two fresh sessions joined by an empty transport. -/
def init (cfg : Role → Config) : System where
  ends := fun r => Session.new (cfg r) r
  wire := fun _ => []

/-- Replace one session. -/
def put (S : System) (r : Role) (s : Session) : System :=
  { S with ends := Function.update S.ends r s }

/-- One turn of a writer task. -/
def writerTurn (S : System) (r : Role) : System :=
  let (f, s) := (S.ends r).writerNext
  { ends := Function.update S.ends r s
    wire := Function.update S.wire r (S.wire r ++ f.toList) }

/-- One turn of a reader task, if it still runs and a frame has arrived. -/
def readerTurn (S : System) (r : Role) : System :=
  if (S.ends r).readerDone then S
  else
    match S.wire r.peer with
    | [] => S
    | f :: rest =>
        { ends := Function.update S.ends r ((S.ends r).readerNext f)
          wire := Function.update S.wire r.peer rest }

/-- The reader finds the end of the connection: its peer's writer has shut
the transport down and everything before that was read. -/
def eofTurn (S : System) (r : Role) : System :=
  if (S.ends r).readerDone = false ∧ S.wire r.peer = [] ∧
      ((S.ends r.peer).writer = .flushed ∨
        (S.ends r.peer).writer = .exited) then
    S.put r (S.ends r).readerEof
  else S

def step (S : System) (a : Action) : System :=
  let s := S.ends a.role
  match a.act with
  | .openStart => S.put a.role s.openStart.2
  | .openPoll h => S.put a.role (s.openPoll h).2
  | .openTimeout h => S.put a.role (s.openTimeout h).2
  | .openCancel h => S.put a.role (s.openCancel h)
  | .accept => S.put a.role s.acceptPoll.2
  | .pollRead h remaining => S.put a.role (s.pollRead h remaining)
  | .pollWrite h buf => S.put a.role (s.pollWrite h buf)
  | .shutdown h => S.put a.role (s.pollShutdown h)
  | .reset h => S.put a.role (s.reset h)
  | .drop h => S.put a.role (s.dropHandle h)
  | .close => S.put a.role s.close
  | .writerNext => S.writerTurn a.role
  | .writerStop => S.put a.role s.writerStop
  | .readerNext => S.readerTurn a.role
  | .readerStop => S.put a.role s.readerStop
  | .readerEof => S.eofTurn a.role
  | .closerNext => S.put a.role s.closerNext
  | .closerStop => S.put a.role s.closerStop
  | .keepaliveTick => S.put a.role s.keepaliveTick
  | .keepalivePong => S.put a.role s.keepalivePong
  | .keepaliveTimeout => S.put a.role s.keepaliveTimeout
  | .keepaliveStop => S.put a.role s.keepaliveStop

/-- The state after a run from the initial state. -/
def after (cfg : Role → Config) (as : List Action) : System :=
  run step (init cfg) as

@[simp] theorem put_ends_self (S : System) (r : Role) (s : Session) :
    (S.put r s).ends r = s := by
  simp [put]

theorem put_ends_ne (S : System) {r r' : Role} (s : Session) (h : r' ≠ r) :
    (S.put r s).ends r' = S.ends r' := by
  simp [put, h]

@[simp] theorem put_wire (S : System) (r : Role) (s : Session) :
    (S.put r s).wire = S.wire := rfl

end System

end NetMux
