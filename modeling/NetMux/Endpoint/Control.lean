import NetMux.Endpoint.Machine

/-!
# The part of a session that belongs to no stream

Pings, their replies and `GoAway` carry no stream id, and what they act on is
not kept per stream: the flags of the session, the phases of its tasks and the
state of its keepalive task.  `Session.control` is that part of a session,
with the session-scoped frames of the outbound queue.

Everything a user does with streams leaves the control alone, and so does every
frame of a stream that is dispatched without an error.  What remains is said
here once: the lemmas `control_perform`, `control_dispatch` and
`writerNext_cases` are all that the later modules use of the session's code.
-/

namespace NetMux

open Lib Lib.Run

/-- A frame that belongs to no stream. -/
def Frame.isSignal (f : Frame) : Bool := f.streamId?.isNone

/-- The session-scoped frames among some. -/
def signals (fs : List Frame) : List Frame := fs.filter Frame.isSignal

@[simp] theorem signals_nil : signals [] = [] := rfl

@[simp] theorem signals_append (fs gs : List Frame) :
    signals (fs ++ gs) = signals fs ++ signals gs := List.filter_append ..

theorem signals_eq_nil {fs : List Frame} :
    signals fs = [] ↔ ∀ f ∈ fs, f.isSignal = false := by
  simp [signals]

/-- The nonce a frame asks the receiver to echo. -/
def Frame.asks? : Frame → Option UInt32
  | .ping flags nonce => if flags.contains Flags.ack then none else some nonce
  | _ => none

/-- The nonce a frame echoes. -/
def Frame.echoes? : Frame → Option UInt32
  | .ping flags nonce => if flags.contains Flags.ack then some nonce else none
  | _ => none

/-- A session without its streams. -/
structure Control where
  config : Config
  /-- The session-scoped frames that wait for the writer. -/
  out : Chan Frame
  shutdown : Bool
  isClosing : Bool
  peerGone : Bool
  writer : WriterPhase
  encodeFailed : Bool
  readerDone : Bool
  closerDone : Bool
  keepalive : Keepalive
  deriving DecidableEq, Repr

namespace Control

def enqueue (c : Control) (f : Frame) : Control := { c with out := c.out.send f }

def initiateShutdown (c : Control) (code : ErrorCode) : Control :=
  if c.isClosing then c
  else
    { c with isClosing := true, shutdown := true, out := c.out.send (.goAway code) }

def keepaliveTick (c : Control) : Control :=
  if c.keepalive.running ∧ ¬ c.keepalive.awaiting then
    let nonce := c.keepalive.nonce + 1
    let keepalive := { c.keepalive with nonce := nonce }
    if c.out.closed then
      { c with keepalive := Session.keepaliveExit keepalive }
    else
      { c with
        out := c.out.send (.mkPing nonce)
        keepalive := { keepalive with awaiting := true } }
  else c

def keepalivePong (c : Control) : Control :=
  if c.keepalive.running ∧ c.keepalive.awaiting then
    match c.keepalive.pongs.queue with
    | [] =>
        if c.readerDone then
          { c with keepalive := { c.keepalive with awaiting := false } }
        else c
    | nonce :: rest =>
        { c with keepalive :=
          { c.keepalive with
            pongs := { c.keepalive.pongs with queue := rest }
            awaiting := nonce != c.keepalive.nonce } }
  else c

def keepaliveTimeout (c : Control) : Control :=
  if c.keepalive.running ∧ c.keepalive.awaiting then
    { c.initiateShutdown .timeout with
      keepalive := Session.keepaliveExit c.keepalive }
  else c

def keepaliveStop (c : Control) : Control :=
  if c.keepalive.running ∧ ¬ c.keepalive.awaiting ∧ c.shutdown then
    { c with keepalive := Session.keepaliveExit c.keepalive }
  else c

/-- What the users and tasks other than the writer do; most of it concerns
streams only. -/
def perform (c : Control) : Act → Control
  | .close => c.initiateShutdown .normal
  | .writerStop =>
      if c.writer = .running ∧ c.shutdown then { c with writer := .draining }
      else c
  | .readerStop => if c.shutdown then { c with readerDone := true } else c
  | .closerStop => if c.shutdown then { c with closerDone := true } else c
  | .keepaliveTick => c.keepaliveTick
  | .keepalivePong => c.keepalivePong
  | .keepaliveTimeout => c.keepaliveTimeout
  | .keepaliveStop => c.keepaliveStop
  | _ => c

/-- What a frame does, error or not. -/
def receive (c : Control) : Frame → Control
  | .ping flags nonce =>
      if flags.contains Flags.ack then
        { c with keepalive :=
          { c.keepalive with pongs := c.keepalive.pongs.send nonce } }
      else c.enqueue (.pong nonce)
  | .goAway code => { c with peerGone := true }.initiateShutdown code
  | _ => c

/-- The reader loop ends. -/
def readerEnd (c : Control) (code : ErrorCode) : Control :=
  { c.initiateShutdown code with readerDone := true }

/-- A frame that its codec refuses ends the writer's select loop. -/
def refused (c : Control) (rest : List Frame) : Control :=
  { Control.initiateShutdown { c with out := ⟨rest, c.out.closed⟩ }
      .internalError with
    writer := .draining
    encodeFailed := true }

/-- **Everything that can happen to the control** of a session. -/
inductive Step (c : Control) : Control → Prop where
  | perform (a : Act) : Step c (c.perform a)
  | receive (f : Frame) : Step c (c.receive f)
  | readerEnd (code : ErrorCode) : Step c (c.readerEnd code)
  | write {rest : List Frame} (hrest : rest <:+ c.out.queue) :
      Step c { c with out := ⟨rest, c.out.closed⟩ }
  | refuse (hphase : c.writer = .running) {rest : List Frame}
      (hrest : rest <:+ c.out.queue) : Step c (c.refused rest)
  | flush (hphase : c.writer = .draining) (hqueue : c.out.queue = []) :
      Step c { c with writer := .flushed }
  /-- A frame its codec refuses ends the drain, and the rest is lost. -/
  | abort (hphase : c.writer = .draining) {rest : List Frame}
      (hrest : rest <:+ c.out.queue) :
      Step c { c with
        out := ⟨rest, c.out.closed⟩
        writer := .flushed
        encodeFailed := true }
  | exit (hphase : c.writer = .flushed) :
      Step c { c with out := c.out.close, writer := .exited }

variable {c : Control}

/-- What the flags of a session say together: whoever stops taking frames or
leaves its loop does so in a session that is closing. -/
structure Orderly (c : Control) : Prop where
  outClosing : c.out.closed = true → c.isClosing = true
  watchClosing : c.shutdown = true → c.isClosing = true
  doneClosing : c.readerDone = true → c.isClosing = true
  phaseClosing : c.writer ≠ .running → c.isClosing = true

theorem closing_initiateShutdown (c : Control) (code : ErrorCode) :
    (c.initiateShutdown code).isClosing = true := by
  unfold Control.initiateShutdown
  split
  · assumption
  · rfl

/-- The shutdown is not taken back. -/
theorem Step.closing {c' : Control} (hstep : Step c c')
    (h : c.isClosing = true) : c'.isClosing = true := by
  cases hstep with
  | perform a =>
      cases a with
      | close => exact closing_initiateShutdown ..
      | keepaliveTimeout =>
          simp only [Control.perform, keepaliveTimeout]
          split
          · exact closing_initiateShutdown ..
          · exact h
      | keepalivePong =>
          simp only [Control.perform, keepalivePong]
          repeat' split
          all_goals exact h
      | _ =>
          simp only [Control.perform, keepaliveTick, keepaliveStop]
          repeat' split
          all_goals exact h
  | receive f =>
      cases f with
      | goAway code => exact closing_initiateShutdown ..
      | ping flags nonce =>
          simp only [Control.receive]
          split <;> exact h
      | _ => exact h
  | readerEnd code => exact closing_initiateShutdown ..
  | refuse hphase hrest => exact closing_initiateShutdown ..
  | _ => exact h

theorem Orderly.of_closing (h : c.isClosing = true) : c.Orderly :=
  ⟨fun _ => h, fun _ => h, fun _ => h, fun _ => h⟩

/-- A step that touches none of the flags. -/
theorem Orderly.of_same (h : c.Orderly) {c' : Control}
    (hout : c'.out.closed = c.out.closed) (hwatch : c'.shutdown = c.shutdown)
    (hdone : c'.readerDone = c.readerDone) (hwriter : c'.writer = c.writer)
    (hclosing : c'.isClosing = c.isClosing) : c'.Orderly where
  outClosing := by rw [hout, hclosing]; exact h.outClosing
  watchClosing := by rw [hwatch, hclosing]; exact h.watchClosing
  doneClosing := by rw [hdone, hclosing]; exact h.doneClosing
  phaseClosing := by rw [hwriter, hclosing]; exact h.phaseClosing

/-- **What a session that is not closing does with probes**: the ticker sends
one, or the task takes a reply; nothing else touches them. -/
theorem perform_open (h : c.Orderly) (a : Act)
    (hopen : (c.perform a).isClosing = false) :
    c.perform a = c ∨
    (c.keepalive.awaiting = false ∧ c.perform a =
      { c with
        out := ⟨c.out.queue ++ [.mkPing (c.keepalive.nonce + 1)], c.out.closed⟩
        keepalive := { c.keepalive with
          nonce := c.keepalive.nonce + 1, awaiting := true } } ∧
      c.keepalive.running = true) ∨
    (c.keepalive.awaiting = true ∧ ∃ nonce rest,
      c.keepalive.pongs.queue = nonce :: rest ∧ c.perform a =
        { c with keepalive := { c.keepalive with
          pongs := ⟨rest, c.keepalive.pongs.closed⟩
          awaiting := nonce != c.keepalive.nonce } }) := by
  have hcl : c.isClosing = false := by
    rw [Bool.eq_false_iff] at hopen ⊢
    exact mt (Step.perform a).closing hopen
  have hwatch : c.shutdown = false := by
    rw [Bool.eq_false_iff] at hcl ⊢
    exact mt h.watchClosing hcl
  have hdone : c.readerDone = false := by
    rw [Bool.eq_false_iff] at hcl ⊢
    exact mt h.doneClosing hcl
  have hout : c.out.closed = false := by
    rw [Bool.eq_false_iff] at hcl ⊢
    exact mt h.outClosing hcl
  cases a with
  | close => simp [perform, initiateShutdown, hcl] at hopen
  | keepaliveTick =>
      simp only [perform, keepaliveTick]
      split
      · rename_i hrun
        refine .inr (.inl ⟨by simpa using hrun.2, ?_, hrun.1⟩)
        simp [hout, Chan.send]
      · exact .inl rfl
  | keepalivePong =>
      simp only [perform, keepalivePong]
      split
      · rename_i hrun
        split
        · exact .inl (by simp [hdone])
        · rename_i nonce rest hq
          exact .inr (.inr ⟨hrun.2, nonce, rest, hq, rfl⟩)
      · exact .inl rfl
  | keepaliveTimeout =>
      simp only [perform, keepaliveTimeout] at hopen ⊢
      split at hopen
      · simp [initiateShutdown, hcl] at hopen
      · rename_i hidle
        exact .inl (if_neg hidle)
  | _ => exact .inl (by simp [perform, keepaliveStop, hwatch])

/-- **Every step keeps the flags in order.** -/
theorem Step.orderly {c' : Control} (hstep : Step c c') (h : c.Orderly) :
    c'.Orderly := by
  by_cases hcl : c'.isClosing = true
  · exact .of_closing hcl
  have hopen : c'.isClosing = false := by simpa using hcl
  cases hstep with
  | perform a =>
      obtain hsame | ⟨-, hc, -⟩ | ⟨-, _, _, -, hc⟩ := perform_open h a hopen
      · rw [hsame]
        exact h
      · rw [hc]
        exact h.of_same rfl rfl rfl rfl rfl
      · rw [hc]
        exact h.of_same rfl rfl rfl rfl rfl
  | receive f =>
      cases f with
      | goAway code => exact absurd (closing_initiateShutdown ..) hcl
      | ping flags nonce =>
          simp only [Control.receive]
          split
          · exact h.of_same rfl rfl rfl rfl rfl
          · exact h.of_same (Chan.send_closed ..) rfl rfl rfl rfl
      | _ => exact h
  | readerEnd code => exact absurd (closing_initiateShutdown ..) hcl
  | write hrest => exact h.of_same rfl rfl rfl rfl rfl
  | refuse hphase hrest => exact absurd (closing_initiateShutdown ..) hcl
  | flush hphase hqueue =>
      exact absurd (h.phaseClosing (by rw [hphase]; decide)) hcl
  | abort hphase hrest =>
      exact absurd (h.phaseClosing (by rw [hphase]; decide)) hcl
  | exit hphase =>
      exact absurd (h.phaseClosing (by rw [hphase]; decide)) hcl

theorem keepalive_readerEnd (c : Control) (code : ErrorCode) :
    (c.readerEnd code).keepalive = c.keepalive := by
  unfold readerEnd initiateShutdown
  split <;> rfl

end Control

/-! ## Streams send no session-scoped frames -/

namespace StreamInner

theorem noSignal_pollRead (s : StreamInner) (remaining : Nat) :
    ∀ f ∈ (s.pollRead remaining).2.2.frames, f.isSignal = false := by
  rw [pollRead_emit]
  intro f hf
  simp only at hf
  split at hf
  · cases hf
  · unfold creditFrames at hf
    split at hf
    · cases List.mem_singleton.mp hf
      rfl
    · cases hf

theorem noSignal_pollWrite (s : StreamInner) (outOpen : Bool) (buf : Bytes) :
    ∀ f ∈ (s.pollWrite outOpen buf).2.2.frames, f.isSignal = false := by
  rw [pollWrite_eq]
  intro f hf
  repeat' split at hf
  all_goals first
    | exact absurd hf List.not_mem_nil
    | cases List.mem_singleton.mp hf
      rfl

theorem noSignal_localFin (s : StreamInner) :
    ∀ f ∈ s.localFin.2.frames, f.isSignal = false := by
  unfold localFin
  dsimp only
  intro f hf
  repeat' split at hf
  all_goals first
    | exact absurd hf List.not_mem_nil
    | cases List.mem_singleton.mp hf
      rfl

theorem noSignal_localReset (s : StreamInner) :
    ∀ f ∈ s.localReset.2.frames, f.isSignal = false := by
  unfold localReset
  dsimp only
  intro f hf
  split at hf
  · cases hf
  · dsimp only at hf
    split at hf
    · cases hf
    · cases List.mem_singleton.mp hf
      rfl

theorem noSignal_onUserDrop (s : StreamInner) :
    ∀ f ∈ s.onUserDrop.2.frames, f.isSignal = false := by
  unfold onUserDrop
  split
  · intro f hf
    simp only [Emit.append, List.append_nil] at hf
    exact s.noSignal_localFin f hf
  · exact fun f hf => by cases hf

theorem noSignal_deliverTo (s : StreamInner) (flags : Flags) (payload : Bytes) :
    ∀ f ∈ (Session.deliverTo s flags payload).2.2.frames, f.isSignal = false := by
  intro f hf
  simp only [Session.deliverTo] at hf
  generalize (if flags.contains Flags.ack then s.markAcked else s) = t at hf
  split at hf
  · exact t.noSignal_localReset f hf
  · dsimp only at hf
    split at hf <;> cases hf

end StreamInner

namespace Session

/-- The part that belongs to no stream. -/
def control (s : Session) : Control where
  config := s.config
  out := ⟨signals s.out.queue, s.out.closed⟩
  shutdown := s.shutdown
  isClosing := s.isClosing
  peerGone := s.peerGone
  writer := s.writer
  encodeFailed := s.encodeFailed
  readerDone := s.readerDone
  closerDone := s.closer.closed
  keepalive := s.keepalive

variable {s : Session}

theorem control_sendAll (c : Chan Frame) (fs : List Frame) :
    (⟨signals (c.sendAll fs).queue, (c.sendAll fs).closed⟩ : Chan Frame) =
      Chan.sendAll ⟨signals c.queue, c.closed⟩ (signals fs) := by
  unfold Chan.sendAll
  split
  · rename_i hcl
    simp [hcl]
  · rename_i hcl
    simp [hcl]

theorem control_send {f : Frame} (hf : f.isSignal = true) (c : Chan Frame) :
    (⟨signals (c.send f).queue, (c.send f).closed⟩ : Chan Frame) =
      Chan.send ⟨signals c.queue, c.closed⟩ f := by
  have hsend := control_sendAll c [f]
  rw [show signals [f] = [f] by simp [signals, hf]] at hsend
  exact hsend

/-- Frames of streams do not show. -/
theorem control_out (fs : List Frame) (hfs : ∀ f ∈ fs, f.isSignal = false) :
    { s with out := s.out.sendAll fs }.control = s.control := by
  have hnone := control_sendAll s.out fs
  rw [signals_eq_nil.mpr hfs, Chan.sendAll_nil] at hnone
  simp only [control]
  rw [hnone]

theorem control_update {emit : Emit} (n : Ref) (c : Cell)
    (hemit : ∀ f ∈ emit.frames, f.isSignal = false) :
    (s.update n c emit).control = s.control := by
  have hout : (s.update n c emit).control =
      { s with closer := s.closer.sendAll emit.closes }.control :=
    control_out (s := { s with
      streams := s.streams.set n c
      closer := s.closer.sendAll emit.closes }) _ hemit
  rw [hout]
  simp [control]

theorem control_enqueue {f : Frame} (hf : f.isSignal = true) :
    (s.enqueue f).control = s.control.enqueue f :=
  congrArg (fun out => ({ s.control with out := out } : Control))
    (control_send hf s.out)

theorem control_initiateShutdown (code : ErrorCode) :
    (s.initiateShutdown code).control = s.control.initiateShutdown code := by
  unfold initiateShutdown Control.initiateShutdown
  cases hcl : s.isClosing with
  | true => simp [control, hcl]
  | false =>
      rw [if_neg (by decide), if_neg (by simp [control, hcl])]
      exact congrArg (fun out => ({ s.control with
        isClosing := true, shutdown := true, out := out } : Control))
        (control_send (f := .goAway code) rfl s.out)

@[simp] theorem initiateShutdown_keepalive (code : ErrorCode) :
    (s.initiateShutdown code).keepalive = s.keepalive := by
  unfold initiateShutdown
  split <;> rfl

/-! ## Calls of users and tasks -/

theorem control_openPoll (n : Ref) : (s.openPoll n).2.control = s.control := by
  unfold openPoll
  repeat' split
  all_goals rfl

/-- **What the users and tasks do to the control.** -/
theorem control_perform {a : Act} (ha : a ≠ .writerNext) :
    (s.perform a).control = s.control.perform a := by
  cases a with
  | writerNext => exact absurd rfl ha
  | openStart =>
      simp only [perform, openStart, Control.perform]
      repeat' split
      all_goals first | rfl | exact control_out _ (by simp; rfl)
  | openPoll n => exact control_openPoll n
  | openTimeout n =>
      simp only [perform, openTimeout, Control.perform]
      repeat' split
      all_goals first
        | rfl
        | exact control_openPoll n
        | exact control_out (s := { s with registry := _, streams := _ })
            [.rst _] (by simp; rfl)
  | openCancel n =>
      simp only [perform, openCancel, Control.perform]
      split <;> rfl
  | accept =>
      simp only [perform, acceptPoll, Control.perform]
      repeat' split
      all_goals first | rfl | exact control_out _ (by simp; rfl)
  | pollRead n remaining =>
      simp only [perform, pollRead, Control.perform]
      split
      · rfl
      · exact control_update n _ (StreamInner.noSignal_pollRead _ _)
  | pollWrite n buf =>
      simp only [perform, pollWrite, Control.perform]
      split
      · rfl
      · exact control_update n _ (StreamInner.noSignal_pollWrite _ _ _)
  | shutdown n =>
      simp only [perform, pollShutdown, Control.perform]
      split
      · rfl
      · exact control_update n _ (StreamInner.noSignal_localFin _)
  | reset n =>
      simp only [perform, reset, Control.perform]
      split
      · rfl
      · exact control_update n _ (StreamInner.noSignal_localReset _)
  | drop n =>
      simp only [perform, dropHandle, Control.perform]
      split
      · rfl
      · exact control_update n _ (StreamInner.noSignal_onUserDrop _)
  | close => exact control_initiateShutdown .normal
  | writerStop => exact apply_ite control _ _ _
  | readerNext => rfl
  | readerStop => exact apply_ite control _ _ _
  | readerEof => rfl
  | closerNext =>
      simp only [perform, closerNext, Control.perform]
      split <;> rfl
  | closerStop => exact apply_ite control _ _ _
  | keepaliveTick =>
      refine (apply_ite control _ _ _).trans (if_congr .rfl ?_ rfl)
      refine (apply_ite control _ _ _).trans (if_congr .rfl rfl ?_)
      exact congrArg (fun out => ({ s.control with
        out := out
        keepalive := { s.keepalive with
          nonce := s.keepalive.nonce + 1, awaiting := true } } : Control))
        (control_send (f := .mkPing (s.keepalive.nonce + 1)) rfl s.out)
  | keepalivePong =>
      refine (apply_ite control _ _ _).trans (if_congr .rfl ?_ rfl)
      show control (match s.keepalive.pongs.queue with | [] => _ | _ :: _ => _) =
        match s.keepalive.pongs.queue with | [] => _ | _ :: _ => _
      split
      · exact apply_ite control _ _ _
      · rfl
  | keepaliveTimeout =>
      refine (apply_ite control _ _ _).trans (if_congr .rfl ?_ rfl)
      show ({ (s.initiateShutdown .timeout).control with
        keepalive := keepaliveExit (s.initiateShutdown .timeout).keepalive } :
          Control) = _
      rw [control_initiateShutdown, initiateShutdown_keepalive]
      rfl
  | keepaliveStop => exact apply_ite control _ _ _

/-! ## The reader -/

theorem control_handleStream (i : StreamId) (flags : Flags) (payload : Bytes) :
    (s.handleStream i flags payload).2.control = s.control := by
  unfold handleStream
  split
  · split
    · exact control_out [.rst i] (by simp; rfl)
    · rfl
  · exact control_update _ _ (StreamInner.noSignal_deliverTo _ _ _)

/-- **What a frame does to the control.** -/
theorem control_dispatch (f : Frame) :
    (s.dispatch f).2.control = s.control.receive f := by
  cases f with
  | data i flags payload =>
      have hrst : ∀ t : Session, (t.enqueue (.rst i)).control = t.control :=
        fun t => control_out [.rst i] (by simp; rfl)
      simp only [dispatch, handleData, Control.receive]
      split
      · rfl
      · split
        · obtain ⟨e, hsyn⟩ | hsyn | ⟨g, -, -, -, ⟨-, hsyn⟩ | ⟨-, hsyn⟩⟩ :=
            s.handleSyn_cases i
          · rw [hsyn]
          · rw [hsyn]
            exact hrst s
          · rw [hsyn]
            exact hrst (s.turningAway i g)
          · rw [hsyn]
            exact control_handleStream i flags payload
        · exact control_handleStream i flags payload
  | windowUpdate i flags delta =>
      simp only [dispatch, handleWindowUpdate, Control.receive]
      split
      · rfl
      · exact control_update _ _ fun f hf => by cases hf
  | ping flags nonce =>
      refine (apply_ite control _ _ _).trans (if_congr .rfl rfl ?_)
      exact control_enqueue rfl
  | goAway code => exact control_initiateShutdown (s := s.notePeerGone) code

theorem control_readerEnd (code : ErrorCode) (errors : List Error) :
    { s.initiateShutdown code with
      readerDone := true, readerErrors := errors }.control =
      s.control.readerEnd code :=
  congrArg (fun c : Control => { c with readerDone := true })
    (control_initiateShutdown code)

/-- Only a frame of a stream can end the reader loop with an error. -/
theorem control_settle (f : Frame) :
    (settle (s.dispatch f)).control = s.control.receive f ∨
      (f.isSignal = false ∧ ∃ code,
        (settle (s.dispatch f)).control = s.control.readerEnd code) := by
  have hdispatch := control_dispatch (s := s) f
  rcases hd : s.dispatch f with ⟨e | _, s'⟩
  · rw [hd] at hdispatch
    have hdata : f.isSignal = false := by
      cases f with
      | ping flags nonce => cases hd
      | goAway code => cases hd
      | _ => rfl
    have hsame : s.control.receive f = s.control := by
      cases f <;> first | rfl | cases hdata
    refine .inr ⟨hdata, errorCodeOf e, ?_⟩
    rw [← hsame, ← hdispatch]
    exact control_readerEnd _ _
  · rw [hd] at hdispatch
    exact .inl hdispatch

/-! ## The writer -/

theorem writerNext_keepalive (s : Session) :
    s.writerNext.2.keepalive = s.keepalive := by
  obtain heq | ⟨f, rest, -, -, heq⟩ | ⟨f, rest, -, -, heq⟩ | ⟨-, -, heq⟩ |
    ⟨-, f, rest, -, heq⟩ | ⟨-, heq⟩ := s.writerNext_cases
  case inr.inr.inl =>
    rw [heq]
    exact initiateShutdown_keepalive (s := System.popOut s rest) _
  all_goals exact congrArg (fun p => p.2.keepalive) heq

theorem signals_suffix {fs gs : List Frame} (h : fs <:+ gs) :
    signals fs <:+ signals gs :=
  h.filter _

theorem control_refused (s : Session) (rest : List Frame) :
    { (System.popOut s rest).initiateShutdown .internalError with
      writer := .draining
      encodeFailed := true }.control = s.control.refused (signals rest) :=
  congrArg (fun c : Control =>
      { c with writer := .draining, encodeFailed := true })
    (control_initiateShutdown (s := System.popOut s rest) .internalError)

theorem control_writerNext (s : Session) :
    Control.Step s.control s.writerNext.2.control := by
  have hsuffix : ∀ {f : Frame} {rest : List Frame}, s.out.queue = f :: rest →
      signals rest <:+ s.control.out.queue :=
    fun hq => signals_suffix (hq ▸ List.suffix_cons ..)
  obtain heq | ⟨f, rest, hq, -, heq⟩ | ⟨f, rest, hq, hw, heq⟩ | ⟨hw, hq, heq⟩ |
    ⟨hw, f, rest, hq, heq⟩ | ⟨hw, heq⟩ := s.writerNext_cases
  · rw [heq]
    exact .perform .writerNext
  · rw [heq]
    exact .write (hsuffix hq)
  · rw [heq]
    exact control_refused s rest ▸ .refuse hw (hsuffix hq)
  · rw [heq]
    exact .flush hw (congrArg signals hq)
  · rw [heq]
    exact .abort hw (hsuffix hq)
  · rw [heq]
    exact .exit hw

/-- **What an input does to the control.** -/
theorem control_take (s : Session) (x : Input) :
    Control.Step s.control (s.take x).control := by
  have hidle : Control.Step s.control s.control := .perform .writerNext
  cases x with
  | act a =>
      by_cases ha : a = .writerNext
      · subst ha
        exact s.control_writerNext
      · rw [take, control_perform ha]
        exact .perform a
  | frame f =>
      rw [take]
      split
      · exact hidle
      · obtain hc | ⟨-, code, hc⟩ := control_settle (s := s) f
        · exact hc ▸ .receive f
        · exact hc ▸ .readerEnd code
  | garbage e =>
      rw [take]
      split
      · exact hidle
      · exact control_readerEnd .. ▸ .readerEnd _
  | eof =>
      rw [take]
      split
      · exact hidle
      · exact control_readerEnd .. ▸ .readerEnd _

end Session

namespace System

/-- **What an action of the system does to the control of one side.** -/
theorem control_step (S : System) (a : Action) (r : Role) :
    Control.Step (S.ends r).control ((S.step a).ends r).control := by
  obtain ⟨x, hx⟩ := S.step_take a r
  rw [hx]
  exact (S.ends r).control_take x

/-- What every step keeps of the control holds in every run. -/
theorem control_after {I : Control → Prop}
    (hstep : ∀ c c', I c → Control.Step c c' → I c') {cfg : Role → Config}
    (hnew : ∀ r, I (Session.new (cfg r) r).control) (as : List Action)
    (r : Role) : I ((after cfg as).ends r).control :=
  run_invariant_all step (I := fun S => ∀ r, I (S.ends r).control)
    (fun S a hS r => hstep _ _ (hS r) (S.control_step a r)) as _ hnew r

end System

end NetMux
