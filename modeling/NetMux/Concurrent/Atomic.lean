import NetMux.Lib.Run
import NetMux.Session.Calls

/-!
# Calls of `open()`, `SYN` frames and shutdowns, one atomic step at a time

In `Session` one call of `open()` up to its await point is one step, and so
is the dispatch of one frame.  The session is shared by any number of tasks,
though, and only its parts are protected: each call of the registry, of a
channel or of an atomic is atomic, and between two of them anything else may
happen.  Here each of these is a step of its own.  A task is where it stands
(`OpenPc`, `SynPc`, `ShutdownPc`) and all share one `Session`.

Without interference the steps of a call add up to the call as `Session` has
it: `open_alone`, `syn_alone` and `shutdown_alone`.
-/

namespace NetMux

open Lib.Run

/-! ## Where a task stands -/

/-- A call of `open()`, by what it does next. -/
inductive OpenPc where
  /-- Read `is_closing`. -/
  | closedCheck
  /-- Read `peer_gone`. -/
  | goneCheck
  /-- Compare the registry's size with the limit. -/
  | limitCheck
  | allocate
  | insert (id : StreamId)
  /-- Enqueue the `SYN`. -/
  | send (id : StreamId) (h : Ref)
  /-- Wait for the `ACK`. -/
  | wait (id : StreamId) (h : Ref)
  /-- Take the stream out of the registry and fail. -/
  | remove (id : StreamId) (h : Ref) (e : Error)
  | done (result : Except Error Ref)

/-- The reader's handling of a `SYN`, by what it does next. -/
inductive SynPc where
  | idle
  | goneCheck (id : StreamId)
  | limitCheck (id : StreamId)
  | insert (id : StreamId)
  /-- Hand the stream to the accept queue. -/
  | offer (id : StreamId) (h : Ref)
  /-- Take the stream out of the registry again. -/
  | withdraw (id : StreamId) (h : Ref)
  /-- Enqueue an `RST`. -/
  | refuse (id : StreamId)
  deriving DecidableEq, Repr

/-- The one call of `initiate_shutdown` that found the session open, by what
it does next. -/
inductive ShutdownPc where
  | idle
  | announce (code : ErrorCode)
  | drain
  /-- Force-close the drained streams. -/
  | close (rest : List Ref)
  /-- Trip the shutdown watch. -/
  | trip
  | done
  deriving DecidableEq, Repr

namespace Session

/-- Nobody is going to have a handle of the stream. -/
def disown (s : Session) (h : Ref) : Session :=
  { s with streams := s.streams.modify h fun c => { c with owner := .gone } }

/-- The next atomic step of a call of `open()`. -/
def advanceOpen (s : Session) : OpenPc → Session × OpenPc
  | .closedCheck =>
      (s, if s.isClosing then .done (.error .sessionClosed) else .goneCheck)
  | .goneCheck =>
      (s, if s.peerGone then .done (.error .sessionClosed) else .limitCheck)
  | .limitCheck =>
      (s, if s.config.maxStreams ≤ s.registry.len then
          .done (.error (.tooManyStreams s.config.maxStreams))
        else .allocate)
  | .allocate =>
      match s.idAlloc.allocate with
      | none => (s, .done (.error (.tooManyStreams usizeMax)))
      | some (id, idAlloc) => ({ s with idAlloc := idAlloc }, .insert id)
  | .insert id =>
      let h := s.streams.length
      let inner := StreamInner.new id .locally s.config
      match s.registry.insert id h with
      | .error e =>
          ({ s with streams := s.streams ++ [Cell.new inner .gone] },
            .done (.error e))
      | .ok registry =>
          ({ s with
              registry := registry
              streams := s.streams ++ [Cell.new inner .opening] },
            .send id h)
  | .send id h =>
      if s.out.closed then (s, .remove id h .sessionClosed)
      else ({ s with out := s.out.send (.syn id) }, .wait id h)
  | .wait id h =>
      match s.pendingOpen h with
      | none => (s, .wait id h)
      | some c =>
        match c.inner.waitAcked with
        | .pending => (s, .wait id h)
        | .ready (.ok ()) =>
            ({ s with streams := s.streams.set h { c with owner := .handle } },
              .done (.ok h))
        | .ready (.error e) => (s, .remove id h e)
  | .remove id h e =>
      ({ s.disown h with registry := s.registry.remove id }, .done (.error e))
  | .done result => (s, .done result)

/-- The timer of a waiting call fires: an `RST` is enqueued, unless the wait
is over after all. -/
def openTimer (s : Session) : OpenPc → Session × OpenPc
  | .wait id h =>
      match s.pendingOpen h with
      | none => (s, .wait id h)
      | some c =>
        match c.inner.waitAcked with
        | .pending => (s.enqueue (.rst id), .remove id h .timeout)
        | .ready _ => s.advanceOpen (.wait id h)
  | pc => (s, pc)

/-- The next atomic step of the reader's handling of a `SYN`.  A duplicate id
is an error of the reader. -/
def advanceSyn (s : Session) : SynPc → Session × SynPc
  | .idle => (s, .idle)
  | .goneCheck id => (s, if s.peerGone then .refuse id else .limitCheck id)
  | .limitCheck id =>
      (s, if s.config.maxStreams ≤ s.registry.len then .refuse id
        else .insert id)
  | .insert id =>
      let h := s.streams.length
      let inner := StreamInner.new id .remotely s.config
      match s.registry.insert id h with
      | .error _ => (s, .idle)
      | .ok registry =>
          ({ s with
              registry := registry
              streams := s.streams ++ [Cell.new inner .queued] },
            .offer id h)
  | .offer id h =>
      if s.accept.closed then (s, .withdraw id h)
      else ({ s with accept := s.accept.send h }, .idle)
  | .withdraw id h =>
      ({ s.disown h with registry := s.registry.remove id }, .refuse id)
  | .refuse id => (s.enqueue (.rst id), .idle)

/-- The next atomic step of a shutdown. -/
def advanceShutdown (s : Session) : ShutdownPc → Session × ShutdownPc
  | .idle => (s, .idle)
  | .announce code => (s.enqueue (.goAway code), .drain)
  | .drain =>
      let (drained, registry) := s.registry.drain
      ({ s with registry := registry }, .close drained)
  | .close [] => (s, .trip)
  | .close (h :: rest) =>
      ({ s with streams :=
          s.streams.modify h fun c => { c with inner := c.inner.forceClose } },
        .close rest)
  | .trip => ({ s with shutdown := true }, .done)
  | .done => (s, .done)

end Session

/-! ## All tasks together -/

/-- A shared session and the tasks at work on it. -/
structure Shared where
  session : Session
  opens : List OpenPc
  reader : SynPc
  shutdown : ShutdownPc

/-- One atomic step of one task. -/
inductive Tick where
  /-- Somebody calls `open()`. -/
  | call
  | openStep (k : Nat)
  | openTimer (k : Nat)
  /-- The reader gets a `SYN` of the peer. -/
  | syn (id : StreamId)
  | readerStep
  /-- The reader marks a stream acknowledged. -/
  | ack (h : Ref)
  /-- The reader resets a stream. -/
  | rst (h : Ref)
  /-- The peer has gone away. -/
  | peerGone
  /-- The closer removes an id. -/
  | remove (id : StreamId)
  /-- Somebody calls `initiate_shutdown`. -/
  | shutdown (code : ErrorCode)
  | shutdownStep
  deriving DecidableEq, Repr

namespace Shared

def new (cfg : Config) (role : Role) : Shared :=
  ⟨Session.new cfg role, [], .idle, .idle⟩

/-- One call of `open()` makes a step. -/
def advance (c : Shared) (k : Nat)
    (f : Session → OpenPc → Session × OpenPc) : Shared :=
  match c.opens[k]? with
  | none => c
  | some pc =>
      { c with
        session := (f c.session pc).1
        opens := c.opens.set k (f c.session pc).2 }

/-- A stream is changed by the reader. -/
def onStream (c : Shared) (h : Ref) (f : StreamInner → StreamInner) : Shared :=
  { c with session :=
    { c.session with streams :=
      c.session.streams.modify h fun d => { d with inner := f d.inner } } }

/-- A frame of id 0 or of the side's own parity is refused before anything is
read.  The reader handles one frame at a time. -/
def step (c : Shared) : Tick → Shared
  | .call => { c with opens := c.opens ++ [.closedCheck] }
  | .openStep k => c.advance k Session.advanceOpen
  | .openTimer k => c.advance k Session.openTimer
  | .syn id =>
      if c.reader = .idle ∧ id ≠ 0 ∧ c.session.role.owns id = false then
        { c with reader := .goneCheck id }
      else c
  | .readerStep =>
      { c with
        session := (c.session.advanceSyn c.reader).1
        reader := (c.session.advanceSyn c.reader).2 }
  | .ack h => c.onStream h StreamInner.markAcked
  | .rst h => c.onStream h fun inner => inner.remoteReset.1
  | .peerGone => { c with session := c.session.notePeerGone }
  | .remove id =>
      { c with session :=
        { c.session with registry := c.session.registry.remove id } }
  | .shutdown code =>
      if c.session.isClosing then c
      else
        { c with
          session := { c.session with isClosing := true }
          shutdown := .announce code }
  | .shutdownStep =>
      { c with
        session := (c.session.advanceShutdown c.shutdown).1
        shutdown := (c.session.advanceShutdown c.shutdown).2 }

end Shared

/-! ## A task alone -/

/-- A task makes a number of steps with nobody in between. -/
def alone {π : Type} (f : Session → π → Session × π) :
    Nat → Session × π → Session × π
  | 0, p => p
  | n + 1, p => alone f n (f p.1 p.2)

namespace Shared

variable (c : Shared)

theorem run_openStep (n : Nat) (pc : OpenPc) (opens : List OpenPc) :
    run step { c with opens := opens ++ [pc] }
        (List.replicate n (.openStep opens.length)) =
      { c with
        session := (alone Session.advanceOpen n (c.session, pc)).1
        opens := opens ++
          [(alone Session.advanceOpen n (c.session, pc)).2] } := by
  induction n generalizing c pc with
  | zero => rfl
  | succ n ih =>
      have hstep : step { c with opens := opens ++ [pc] }
          (.openStep opens.length) =
            { c with
              session := (c.session.advanceOpen pc).1
              opens := opens ++ [(c.session.advanceOpen pc).2] } := by
        simp [step, advance]
      rw [List.replicate_succ, run_cons, hstep]
      exact ih { c with session := (c.session.advanceOpen pc).1 } _

theorem run_readerStep (n : Nat) :
    run step c (List.replicate n .readerStep) =
      { c with
        session := (alone Session.advanceSyn n (c.session, c.reader)).1
        reader := (alone Session.advanceSyn n (c.session, c.reader)).2 } := by
  induction n generalizing c with
  | zero => rfl
  | succ n ih =>
      rw [List.replicate_succ, run_cons, ih]
      rfl

theorem run_shutdownStep (n : Nat) :
    run step c (List.replicate n .shutdownStep) =
      { c with
        session :=
          (alone Session.advanceShutdown n (c.session, c.shutdown)).1
        shutdown :=
          (alone Session.advanceShutdown n (c.session, c.shutdown)).2 } := by
  induction n generalizing c with
  | zero => rfl
  | succ n ih =>
      rw [List.replicate_succ, run_cons, ih]
      rfl

end Shared

namespace Session

/-- Where `open()` stands once it waits or has failed. -/
def openedPc (id : StreamId) : Except Error Ref → OpenPc
  | .ok h => .wait id h
  | .error e => .done (.error e)

/-- The last entry of a table is changed. -/
theorem modify_last {α : Type} (f : α → α) (a : α) (l : List α) :
    (l ++ [a]).modify l.length f = l ++ [f a] := by
  induction l with
  | nil => rfl
  | cons b l ih => simp [ih]

/-- The steps of `open()` add up to `openStart`. -/
theorem alone_open (s : Session) :
    ∃ id, alone advanceOpen 7 (s, .closedCheck) =
      (s.openStart.2, openedPc id s.openStart.1) := by
  unfold openStart
  cases hcl : s.isClosing with
  | true => exact ⟨0, by simp [alone, advanceOpen, hcl, openedPc]⟩
  | false =>
    cases hgone : s.peerGone with
    | true => exact ⟨0, by simp [alone, advanceOpen, hcl, hgone, openedPc]⟩
    | false =>
      by_cases hmax : s.config.maxStreams ≤ s.registry.len
      · exact ⟨0, by simp [alone, advanceOpen, hcl, hgone, hmax, openedPc]⟩
      cases halloc : s.idAlloc.allocate with
      | none =>
          refine ⟨0, ?_⟩
          simp [alone, advanceOpen, hcl, hgone, hmax, halloc, openedPc]
      | some p =>
          obtain ⟨id, idAlloc⟩ := p
          refine ⟨id, ?_⟩
          cases hins : s.registry.insert id s.streams.length with
          | error e =>
              simp [alone, advanceOpen, hcl, hgone, hmax, halloc, hins,
                openedPc]
          | ok registry =>
              cases hout : s.out.closed with
              | true =>
                  simp [alone, advanceOpen, hcl, hgone, hmax, halloc, hins,
                    hout, openedPc, disown, modify_last, Cell.new]
              | false =>
                  simp [alone, advanceOpen, hcl, hgone, hmax, halloc, hins,
                    hout, openedPc, pendingOpen, Cell.new, StreamInner.new,
                    StreamInner.waitAcked, StreamState.new]

/-- The steps for a `SYN` add up to `handleSyn`. -/
theorem alone_syn (s : Session) {id : StreamId}
    (hown : s.role.owns id = false) :
    alone advanceSyn 6 (s, .goneCheck id) =
      (match s.handleSyn id with
        | .inl returned => returned.2
        | .inr s' => s', .idle) := by
  unfold handleSyn
  cases hgone : s.peerGone with
  | true => simp [alone, advanceSyn, hown, hgone]
  | false =>
    by_cases hmax : s.config.maxStreams ≤ s.registry.len
    · simp [alone, advanceSyn, hown, hgone, hmax]
    cases hins : s.registry.insert id s.streams.length with
    | error e => simp [alone, advanceSyn, hown, hgone, hmax, hins]
    | ok registry =>
        cases haccept : s.accept.closed with
        | true =>
            simp [alone, advanceSyn, hown, hgone, hmax, hins, haccept, disown,
              modify_last, Cell.new, enqueue]
        | false =>
            simp [alone, advanceSyn, hown, hgone, hmax, hins, haccept]

/-- The drained streams are force-closed one by one. -/
theorem alone_close (s : Session) (hs : List Ref) :
    alone advanceShutdown (hs.length + 2) (s, .close hs) =
      ({ s with
          streams := forceCloseAll s.streams hs
          shutdown := true }, .done) := by
  induction hs generalizing s with
  | nil => rfl
  | cons h hs ih =>
      show alone advanceShutdown (hs.length + 2) _ = _
      exact ih _

/-- The steps of a shutdown add up to `initiateShutdown`. -/
theorem alone_shutdown {s : Session} (hcl : s.isClosing = false)
    (code : ErrorCode) :
    alone advanceShutdown (s.registry.drain.1.length + 4)
        ({ s with isClosing := true }, .announce code) =
      (s.initiateShutdown code, .done) := by
  have hclose := alone_close
    { s with
      isClosing := true
      out := s.out.send (.goAway code)
      registry := s.registry.drain.2 } s.registry.drain.1
  unfold initiateShutdown
  rw [hcl]
  exact hclose

end Session

namespace Shared

variable (c : Shared)

/-- **A call of `open()` with nobody in between is `openStart`.** -/
theorem open_alone : ∃ id,
    run step c (.call :: List.replicate 7 (.openStep c.opens.length)) =
      { c with
        session := c.session.openStart.2
        opens := c.opens ++
          [Session.openedPc id c.session.openStart.1] } := by
  obtain ⟨id, hid⟩ := c.session.alone_open
  refine ⟨id, ?_⟩
  rw [run_cons]
  show run step { c with opens := c.opens ++ [OpenPc.closedCheck] } _ = _
  rw [run_openStep, hid]

/-- **A `SYN` with nobody in between is `handleSyn`.** -/
theorem syn_alone {id : StreamId} (hidle : c.reader = .idle) (hid : id ≠ 0)
    (hown : c.session.role.owns id = false) :
    run step c (.syn id :: List.replicate 6 .readerStep) =
      { c with session :=
        match c.session.handleSyn id with
        | .inl returned => returned.2
        | .inr s => s } := by
  have hstart : step c (.syn id) = { c with reader := .goneCheck id } :=
    if_pos ⟨hidle, hid, hown⟩
  rw [run_cons, hstart, run_readerStep, Session.alone_syn _ hown, ← hidle]

/-- **A shutdown with nobody in between is `initiateShutdown`.** -/
theorem shutdown_alone (hcl : c.session.isClosing = false)
    (code : ErrorCode) :
    run step c (.shutdown code ::
        List.replicate (c.session.registry.drain.1.length + 4)
          .shutdownStep) =
      { c with
        session := c.session.initiateShutdown code
        shutdown := .done } := by
  have hstart : step c (.shutdown code) =
      { c with
        session := { c.session with isClosing := true }
        shutdown := .announce code } :=
    if_neg (by rw [hcl]; decide)
  rw [run_cons, hstart, run_shutdownStep, Session.alone_shutdown hcl]

end Shared

end NetMux
