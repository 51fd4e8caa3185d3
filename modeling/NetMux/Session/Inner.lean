import Mathlib.Data.List.AList
import NetMux.Protocol.Codec
import NetMux.Stream.Inner

/-!
# Shared session state

A `Session` is everything one endpoint of the connection holds: the fields
of `SessionInner`, the streams themselves, and the phases of the background
tasks.

Streams are shared (`Arc<StreamInner>`) between the registry, the accept
queue, pending `open()` calls and the user's handles, so they live in a table
and everyone else holds a `Ref` into it.  The table only grows; nothing in
the source reads a stream after its last reference is gone.  Each entry is a
`Cell`: the stream, who besides the registry refers to it, and the history
of its handle (the bytes `poll_read` returned and the bytes `poll_write`
accepted), which no code reads.
-/

namespace NetMux

/-! ## Channels -/

/-- An unbounded channel: what was sent and not yet received, and whether
the receiver is gone. -/
structure Chan (α : Type) where
  queue : List α
  closed : Bool
  deriving DecidableEq, Repr

namespace Chan

variable {α : Type}

def new : Chan α := ⟨[], false⟩

/-- Send one value; it is dropped when the receiver is gone. -/
def send (c : Chan α) (a : α) : Chan α :=
  if c.closed then c else { c with queue := c.queue ++ [a] }

/-- Send several values in order. -/
def sendAll (c : Chan α) (as : List α) : Chan α :=
  if c.closed then c else { c with queue := c.queue ++ as }

/-- The receiver goes away with everything still queued. -/
def close (_ : Chan α) : Chan α := ⟨[], true⟩

@[simp] theorem send_closed (c : Chan α) (a : α) :
    (c.send a).closed = c.closed := by
  unfold send
  split <;> rfl

@[simp] theorem sendAll_closed (c : Chan α) (as : List α) :
    (c.sendAll as).closed = c.closed := by
  unfold sendAll
  split <;> rfl

@[simp] theorem sendAll_nil (c : Chan α) : c.sendAll [] = c := by
  simp [sendAll]

theorem sendAll_sendAll (c : Chan α) (as bs : List α) :
    (c.sendAll as).sendAll bs = c.sendAll (as ++ bs) := by
  unfold sendAll
  cases h : c.closed <;> simp [h]

theorem send_eq_sendAll (c : Chan α) (a : α) : c.send a = c.sendAll [a] := rfl

theorem sendAll_queue (c : Chan α) (as : List α) :
    (c.sendAll as).queue = c.queue ++ if c.closed then [] else as := by
  unfold sendAll
  split <;> simp

end Chan

/-! ## Streams and their owners -/

/-- Reference to a stream: its place in the session's table. -/
abbrev Ref := Nat

/-- Who, besides the registry, holds a stream. -/
inductive Owner where
  /-- A pending `open()` call. -/
  | opening
  /-- The accept queue. -/
  | queued
  /-- A live `Stream` handle. -/
  | handle
  /-- Nobody: the handle was dropped. -/
  | dropped
  /-- Nobody: no handle was ever made, and the call that would have made it
  has ended. -/
  | gone
  deriving DecidableEq, Repr

/-- Someone holds the stream, or is about to. -/
def Owner.live : Owner → Bool
  | .opening => true
  | .queued => true
  | .handle => true
  | .dropped => false
  | .gone => false

/-- A stream in the table. -/
structure Cell where
  inner : StreamInner
  owner : Owner
  /-- All bytes returned by `poll_read` so far. -/
  readLog : Bytes
  /-- All bytes accepted by `poll_write` so far. -/
  writeLog : Bytes
  /-- Whether `Stream::reset` was called on the handle. -/
  userReset : Bool
  deriving DecidableEq, Repr

namespace Cell

def new (inner : StreamInner) (owner : Owner) : Cell :=
  ⟨inner, owner, [], [], false⟩

/-- The stream's id. -/
def id (c : Cell) : StreamId := c.inner.id

end Cell

/-! ## The registry -/

/-- Map of stream id to its shared state. -/
abbrev StreamRegistry := AList (fun _ : StreamId => Ref)

namespace StreamRegistry

/-- Insert a new stream.  Errors if the id is already in use. -/
def insert (g : StreamRegistry) (id : StreamId) (stream : Ref) :
    Except Error StreamRegistry :=
  if id ∈ g then .error (.protocol "duplicate stream id")
  else .ok (AList.insert id stream g)

def get (g : StreamRegistry) (id : StreamId) : Option Ref := g.lookup id

def remove (g : StreamRegistry) (id : StreamId) : StreamRegistry := g.erase id

def len (g : StreamRegistry) : Nat := g.entries.length

/-- Drain the entire registry, returning every contained stream. -/
def drain (g : StreamRegistry) : List Ref × StreamRegistry :=
  (g.entries.map Sigma.snd, ∅)

@[simp] theorem get_empty (id : StreamId) : get ∅ id = none :=
  AList.lookup_empty id

theorem get_remove (g : StreamRegistry) (id j : StreamId) :
    (g.remove id).get j = if j = id then none else g.get j := by
  unfold get remove
  split
  · rename_i h
    rw [h]
    exact AList.lookup_erase id g
  · rename_i h
    exact AList.lookup_erase_ne h

/-- What is left after a removal was there before, under another id. -/
theorem get_of_remove {g : StreamRegistry} {id j : StreamId} {n : Ref}
    (h : (g.remove id).get j = some n) : g.get j = some n ∧ j ≠ id := by
  rw [get_remove] at h
  split at h
  · cases h
  · rename_i hj
    exact ⟨h, hj⟩

/-- A new id is inserted without touching the others. -/
theorem insert_ok {g g' : StreamRegistry} {id : StreamId} {n : Ref}
    (h : g.insert id n = .ok g') :
    g.get id = none ∧ ∀ j, g'.get j = if j = id then some n else g.get j := by
  unfold insert at h
  split at h
  · cases h
  · rename_i hmem
    cases h
    refine ⟨AList.lookup_eq_none.mpr hmem, fun j => ?_⟩
    unfold get
    split
    · rename_i hj
      rw [hj]
      exact AList.lookup_insert g
    · rename_i hj
      exact AList.lookup_insert_ne hj

/-- Only an id in use is refused. -/
theorem insert_error {g : StreamRegistry} {id : StreamId} {n : Ref}
    {e : Error} (h : g.insert id n = .error e) : g.get id ≠ none := by
  unfold insert at h
  split at h
  · rename_i hmem
    exact fun hnone => AList.lookup_eq_none.mp hnone hmem
  · cases h

/-- An insertion adds one entry. -/
theorem len_insert {g g' : StreamRegistry} {id : StreamId} {n : Ref}
    (h : g.insert id n = .ok g') : g'.len = g.len + 1 := by
  unfold insert at h
  split at h
  · cases h
  · rename_i hmem
    cases h
    unfold len
    rw [AList.entries_insert_of_notMem hmem]
    rfl

/-- A removal adds none. -/
theorem len_remove_le (g : StreamRegistry) (id : StreamId) :
    (g.remove id).len ≤ g.len :=
  (List.kerase_sublist id g.entries).length_le

theorem mem_drain {g : StreamRegistry} {n : Ref} :
    n ∈ g.drain.1 ↔ ∃ id, g.get id = some n := by
  constructor
  · intro h
    obtain ⟨⟨id, m⟩, hmem, rfl⟩ := List.mem_map.mp h
    exact ⟨id, AList.mem_lookup_iff.mpr hmem⟩
  · rintro ⟨id, h⟩
    exact List.mem_map.mpr ⟨⟨id, n⟩, AList.mem_lookup_iff.mp h, rfl⟩

end StreamRegistry

/-! ## The session -/

/-- How far the writer task has got. -/
inductive WriterPhase where
  /-- In the select loop. -/
  | running
  /-- Out of the loop, emptying the queue. -/
  | draining
  /-- The queue was found empty, or a frame was refused while draining. -/
  | flushed
  /-- Returned; the receiving end of the queue is gone. -/
  | exited
  deriving DecidableEq, Repr

/-- State of the keepalive task. -/
structure Keepalive where
  running : Bool
  nonce : UInt32
  awaiting : Bool
  pongs : Chan UInt32
  deriving DecidableEq, Repr

/-- One endpoint of the connection. -/
structure Session where
  config : Config
  role : Role
  idAlloc : StreamIdAllocator
  registry : StreamRegistry
  out : Chan Frame
  closer : Chan StreamId
  accept : Chan Ref
  shutdown : Bool
  isClosing : Bool
  peerGone : Bool
  streams : List Cell
  writer : WriterPhase
  /-- Whether a frame was ever refused by the writer's codec. -/
  encodeFailed : Bool
  readerDone : Bool
  /-- The errors that ended the reader loop. -/
  readerErrors : List Error
  keepalive : Keepalive

namespace Session

/-- A freshly built session with all its tasks spawned. -/
def new (config : Config) (role : Role) : Session where
  config := config
  role := role
  idAlloc := StreamIdAllocator.new role
  registry := ∅
  out := Chan.new
  closer := Chan.new
  accept := Chan.new
  shutdown := false
  isClosing := false
  peerGone := false
  streams := []
  writer := .running
  encodeFailed := false
  readerDone := false
  readerErrors := []
  keepalive :=
    { running := config.keepaliveInterval.isSome
      nonce := 0
      awaiting := false
      pongs := ⟨[], config.keepaliveInterval.isNone⟩ }

/-- The codec of the reader and of the writer task. -/
def codec (s : Session) : FrameCodec := FrameCodec.new s.config.maxFrameSize

/-- Hand one frame to the outbound queue. -/
def enqueue (s : Session) (f : Frame) : Session :=
  { s with out := s.out.send f }

/-- Replace a stream of the table and hand on what its operation emitted. -/
def update (s : Session) (h : Ref) (c : Cell) (emit : Emit) : Session :=
  { s with
    streams := s.streams.set h c
    out := s.out.sendAll emit.frames
    closer := s.closer.sendAll emit.closes }

/-- The registered stream with a given id. -/
def find (s : Session) (id : StreamId) : Option (Ref × Cell) :=
  match s.registry.get id with
  | none => none
  | some h =>
    match s.streams[h]? with
    | none => none
    | some c => some (h, c)

theorem find_some {s : Session} {id : StreamId} {n : Ref} {c : Cell}
    (hf : s.find id = some (n, c)) :
    s.registry.get id = some n ∧ s.streams[n]? = some c := by
  unfold find at hf
  cases hget : s.registry.get id with
  | none => simp [hget] at hf
  | some m =>
      cases hc : s.streams[m]? with
      | none => simp [hget, hc] at hf
      | some d =>
          simp only [hget, hc, Option.some.injEq, Prod.mk.injEq] at hf
          obtain ⟨rfl, rfl⟩ := hf
          exact ⟨rfl, hc⟩

/-- Force-close every stream in a list of references. -/
def forceCloseAll (streams : List Cell) (hs : List Ref) : List Cell :=
  hs.foldl
    (fun streams h =>
      streams.modify h fun c => { c with inner := c.inner.forceClose })
    streams

/-- Idempotent shutdown initiation: enqueue a `GoAway`, force-close every
registered stream, trip the shutdown watch. -/
def initiateShutdown (s : Session) (code : ErrorCode) : Session :=
  if s.isClosing then s
  else
    let s := { s with isClosing := true }
    let s := s.enqueue (.goAway code)
    let (drained, registry) := s.registry.drain
    { s with
      registry := registry
      streams := forceCloseAll s.streams drained
      shutdown := true }

/-- Mark the peer as having gone away. -/
def notePeerGone (s : Session) : Session := { s with peerGone := true }

end Session

end NetMux
