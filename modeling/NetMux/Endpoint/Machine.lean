import NetMux.Link.Dispatch

/-!
# One endpoint and an arbitrary peer

The peer of a session need not run this code.  Here one session is on its
own: its users and tasks act, and its reader gets whatever the connection
holds, that is any decoded frame, bytes the decoder refuses, or the end of
the connection.  A run is any list of such inputs.  Each side of a `System`
runs this machine, so what holds of it in every run holds of both sides.

`StreamInv` is a property of single streams that all stream operations keep,
with a property of the frames they send; `Each.take` lifts both to sessions.
-/

namespace NetMux

open Lib Lib.Run

/-- What can happen to a session. -/
inductive Input where
  /-- A user or a task of its own acts. -/
  | act (a : Act)
  /-- The reader gets a frame. -/
  | frame (f : Frame)
  /-- The reader gets bytes that are no frame. -/
  | garbage (e : Error)
  /-- The reader finds the end of the connection. -/
  | eof
  deriving DecidableEq, Repr

namespace Session

/-- What a side does by itself.  The reader's turns are inputs of their
own. -/
def perform (s : Session) : Act → Session
  | .openStart => s.openStart.2
  | .openPoll h => (s.openPoll h).2
  | .openTimeout h => (s.openTimeout h).2
  | .openCancel h => s.openCancel h
  | .accept => s.acceptPoll.2
  | .pollRead h remaining => s.pollRead h remaining
  | .pollWrite h buf => s.pollWrite h buf
  | .shutdown h => s.pollShutdown h
  | .reset h => s.reset h
  | .drop h => s.dropHandle h
  | .close => s.close
  | .writerNext => s.writerNext.2
  | .writerStop => s.writerStop
  | .readerNext => s
  | .readerStop => s.readerStop
  | .readerEof => s
  | .closerNext => s.closerNext
  | .closerStop => s.closerStop
  | .keepaliveTick => s.keepaliveTick
  | .keepalivePong => s.keepalivePong
  | .keepaliveTimeout => s.keepaliveTimeout
  | .keepaliveStop => s.keepaliveStop

/-- One step of a session. -/
def take (s : Session) : Input → Session
  | .act a => s.perform a
  | .frame f => if s.readerDone then s else settle (s.dispatch f)
  | .garbage e => if s.readerDone then s else s.readerFail e
  | .eof => if s.readerDone then s else s.readerEof

/-- **What a turn of the writer can do**: nothing, write the head of the
queue, or move on to its next phase; a frame its codec refuses makes it leave
the phase it is in. -/
theorem writerNext_cases (s : Session) :
    s.writerNext = (none, s) ∨
    (∃ f rest, s.out.queue = f :: rest ∧
      (s.writer = .running ∨ s.writer = .draining) ∧
      s.writerNext = (some f, System.popOut s rest)) ∨
    (∃ f rest, s.out.queue = f :: rest ∧ s.writer = .running ∧
      s.writerNext = (none,
        { (System.popOut s rest).initiateShutdown .internalError with
          writer := .draining
          encodeFailed := true })) ∨
    (s.writer = .draining ∧ s.out.queue = [] ∧
      s.writerNext = (none, { s with writer := .flushed })) ∨
    (s.writer = .draining ∧ ∃ f rest, s.out.queue = f :: rest ∧
      s.writerNext = (none,
        { System.popOut s rest with
          writer := .flushed
          encodeFailed := true })) ∨
    (s.writer = .flushed ∧ s.writerNext =
      (none, { s with writer := .exited, out := s.out.close })) := by
  cases hw : s.writer with
  | running =>
      cases hq : s.out.queue with
      | nil => exact .inl (by simp [writerNext, hw, hq])
      | cons f rest =>
          rw [System.writerNext_running hw hq]
          split
          · exact .inr (.inr (.inl ⟨f, rest, rfl, rfl, rfl⟩))
          · exact .inr (.inl ⟨f, rest, rfl, .inl rfl, rfl⟩)
  | draining =>
      cases hq : s.out.queue with
      | nil =>
          exact .inr (.inr (.inr (.inl ⟨rfl, rfl, by simp [writerNext, hw, hq]⟩)))
      | cons f rest =>
          rw [System.writerNext_draining hw hq]
          split
          · exact .inr (.inr (.inr (.inr (.inl ⟨rfl, f, rest, rfl, rfl⟩))))
          · exact .inr (.inl ⟨f, rest, rfl, .inr rfl, rfl⟩)
  | flushed =>
      exact .inr (.inr (.inr (.inr (.inr ⟨rfl, by simp [writerNext, hw]⟩))))
  | exited => exact .inl (by simp [writerNext, hw])

end Session

/-! ## The sides of a system -/

namespace System

/-- The reader's turn is one input. -/
theorem readerTurn_take (S : System) (r : Role) :
    ∃ x, (S.readerTurn r).ends r = (S.ends r).take x := by
  by_cases hidle : (S.ends r).readerDone = true ∨ S.wire r.peer = []
  · rw [readerTurn_idle hidle]
    exact ⟨.act .readerNext, rfl⟩
  rw [not_or, Bool.not_eq_true] at hidle
  obtain ⟨hdone, hne⟩ := hidle
  obtain ⟨f, rest, hwire⟩ := List.exists_cons_of_ne_nil hne
  rw [readerTurn_ends hdone hwire]
  cases htransit : (S.ends r).codec.transit f with
  | error e =>
      refine ⟨.garbage e, ?_⟩
      simp [Session.readerNext, Session.take, htransit, hdone]
  | ok decoded =>
      cases decoded with
      | none =>
          refine ⟨.act .readerNext, ?_⟩
          simp [Session.readerNext, Session.take, Session.perform, htransit]
      | some g =>
          refine ⟨.frame g, ?_⟩
          simp only [Session.readerNext, Session.take, htransit, hdone]
          rfl

/-- **One step of a system is at most one input of each side.** -/
theorem step_take (S : System) (a : Action) (r : Role) :
    ∃ x, (S.step a).ends r = (S.ends r).take x := by
  obtain ⟨r', act⟩ := a
  rcases Role.eq_or_eq_peer r' r with rfl | rfl
  · have hput : ∀ s, s = (S.ends r).perform act →
        ∃ x, (S.put r s).ends r = (S.ends r).take x := fun s hs =>
      ⟨.act act, (put_ends_self S r s).trans hs⟩
    cases act with
    | readerNext => exact S.readerTurn_take r
    | readerEof =>
        show ∃ x, (S.eofTurn r).ends r = _
        unfold eofTurn
        split
        · rename_i heof
          refine ⟨.eof, ?_⟩
          rw [put_ends_self, Session.take, heof.1]
          rfl
        · exact ⟨.act .readerNext, rfl⟩
    | writerNext =>
        refine ⟨.act .writerNext, ?_⟩
        show (Function.update S.ends r _) r = _
        rw [Function.update_self]
        rfl
    | _ => exact hput _ rfl
  · refine ⟨.act .readerNext, ?_⟩
    have hput : ∀ s, (S.put r' s).ends r'.peer = S.ends r'.peer := fun s =>
      put_ends_ne S s (Role.peer_ne r')
    cases act with
    | readerNext => exact readerTurn_peer S r'
    | readerEof =>
        show (S.eofTurn r').ends r'.peer = _
        unfold eofTurn
        split
        · exact hput _
        · rfl
    | writerNext =>
        show (Function.update S.ends r' _) r'.peer = _
        rw [Function.update_of_ne (Role.peer_ne r')]
        rfl
    | _ => exact hput _

/-- **Each side of a run of a system is a run of that side alone.** -/
theorem after_take (cfg : Role → Config) (as : List Action) (r : Role) :
    ∃ xs, (after cfg as).ends r =
      run Session.take (Session.new (cfg r) r) xs := by
  refine run_invariant_all step (I := fun S => ∃ xs, S.ends r =
    run Session.take (Session.new (cfg r) r) xs) ?_ as _ ⟨[], rfl⟩
  rintro S a ⟨xs, hxs⟩
  obtain ⟨x, hx⟩ := S.step_take a r
  refine ⟨xs ++ [x], ?_⟩
  rw [run_append, ← hxs, hx]
  rfl

end System

/-! ## Frames without a payload -/

/-- A frame as the session itself sends it: defined flags and no payload. -/
def Frame.Plain (f : Frame) : Prop := f.FlagsDefined ∧ f.payloadLen = 0

theorem Frame.plain_data (id : StreamId) {flags : Flags}
    (h : flags.Defined) : (Frame.data id flags []).Plain := ⟨h, rfl⟩

namespace StreamInner

theorem plain_pollRead (s : StreamInner) (remaining : Nat) :
    ∀ f ∈ (s.pollRead remaining).2.2.frames, f.Plain := by
  rw [pollRead_eq]
  split
  · exact fun f hf => by cases hf
  · split
    · exact fun f hf => by cases hf
    · split
      · exact fun f hf => by cases hf
      · intro f hf
        simp only [creditFrames] at hf
        split at hf
        · rw [List.mem_singleton.mp hf]
          exact ⟨(by decide : Flags.empty.Defined), rfl⟩
        · cases hf

theorem plain_localFin (s : StreamInner) :
    ∀ f ∈ s.localFin.2.frames, f.Plain := by
  unfold localFin
  split
  · exact fun f hf => by cases hf
  · dsimp only
    split
    · exact fun f hf => by cases hf
    · split
      · exact fun f hf => by cases hf
      · intro f hf
        rw [List.mem_singleton.mp hf]
        exact Frame.plain_data _ (by decide)

theorem plain_localReset (s : StreamInner) :
    ∀ f ∈ s.localReset.2.frames, f.Plain := by
  unfold localReset
  dsimp only
  split
  · exact fun f hf => by cases hf
  · split
    · exact fun f hf => by cases hf
    · intro f hf
      rw [List.mem_singleton.mp hf]
      exact Frame.plain_data _ (by decide)

theorem plain_onUserDrop (s : StreamInner) :
    ∀ f ∈ s.onUserDrop.2.frames, f.Plain := by
  unfold onUserDrop
  split
  · have hfin := plain_localFin s
    simpa [Emit.append] using hfin
  · exact fun f hf => by cases hf

end StreamInner

/-! ## Properties of all streams and of what is sent -/

/-- A property `P` of single streams that holds of new ones and survives every
operation but the arrival of data, and a property `Q` of frames that the
session's own frames have. -/
structure StreamInv (cfg : Config) (P : StreamInner → Prop)
    (Q : Frame → Prop) : Prop where
  plain : ∀ f : Frame, f.Plain → Q f
  new : ∀ id origin, P (StreamInner.new id origin cfg)
  pollRead : ∀ s remaining, P s → P (s.pollRead remaining).2.1
  pollWrite : ∀ s outOpen buf, P s → P (s.pollWrite outOpen buf).2.1
  localFin : ∀ s, P s → P s.localFin.1
  localReset : ∀ s, P s → P s.localReset.1
  forceClose : ∀ s, P s → P s.forceClose
  markAcked : ∀ s, P s → P s.markAcked
  remoteFin : ∀ s, P s → P s.remoteFin
  remoteReset : ∀ s, P s → P s.remoteReset.1
  grantSendCredit : ∀ s delta, P s → P (s.grantSendCredit delta)

/-- All streams of a session, and all frames it has yet to send, have a
property. -/
structure Each (cfg : Config) (P : StreamInner → Prop) (Q : Frame → Prop)
    (s : Session) : Prop where
  config : s.config = cfg
  streams : ∀ c ∈ s.streams, P c.inner
  out : ∀ f ∈ s.out.queue, Q f

/-- The stream that the payload of a `Data` frame is delivered to, if there
is one. -/
def Session.recipient (s : Session) (id : StreamId) (flags : Flags) :
    Option StreamInner :=
  if id = 0 then none
  else if flags.contains Flags.syn then
    match s.handleSyn id with
    | .inl _ => none
    | .inr s' => (s'.find id).map fun p => p.2.inner
  else (s.find id).map fun p => p.2.inner

/-- The two questions an input leaves open: whether data that arrives keeps
the property of its stream, and whether data that is written has the property
of frames. -/
def Admits (P : StreamInner → Prop) (Q : Frame → Prop) (s : Session) :
    Input → Prop
  | .frame (.data id flags payload) =>
      s.readerDone = false → ∀ stream, P stream →
        s.recipient id flags = some stream → stream.canRecv = true →
          P (stream.pushData payload) ∧
            P (stream.markAcked.pushData payload)
  | .act (.pollWrite h buf) =>
      ∀ c, s.handleAt h = some c →
        ∀ f ∈ (c.inner.pollWrite (!s.out.closed) buf).2.2.frames, Q f
  | _ => True

namespace Each

variable {cfg : Config} {P : StreamInner → Prop} {Q : Frame → Prop}
  {s : Session} {c : Cell} {h : Ref} {f : Frame}

/-- A fresh session has no streams and nothing to send. -/
theorem of_new (cfg : Config) (role : Role) :
    Each cfg P Q (Session.new cfg role) :=
  ⟨rfl, fun _ hc => absurd hc List.not_mem_nil,
    fun _ hf => absurd hf List.not_mem_nil⟩

theorem at_ref (hs : Each cfg P Q s) (hc : s.streams[h]? = some c) :
    P c.inner :=
  hs.streams c (List.mem_of_getElem? hc)

theorem find (hs : Each cfg P Q s) {id : StreamId}
    (hf : s.find id = some (h, c)) : P c.inner :=
  hs.at_ref (Session.find_some hf).2

/-- One stream moves on. -/
theorem set (hs : Each cfg P Q s) (hc : P c.inner) :
    Each cfg P Q { s with streams := s.streams.set h c } where
  config := hs.config
  out := hs.out
  streams := fun d hd => by
    rcases List.mem_or_eq_of_mem_set hd with hd | rfl
    · exact hs.streams d hd
    · exact hc

/-- One stream is new. -/
theorem push (hs : Each cfg P Q s) (hc : P c.inner) :
    Each cfg P Q { s with streams := s.streams ++ [c] } where
  config := hs.config
  out := hs.out
  streams := fun d hd => by
    rcases List.mem_append.mp hd with hd | hd
    · exact hs.streams d hd
    · rw [List.mem_singleton.mp hd]
      exact hc

theorem sendAll (hs : Each cfg P Q s) {fs : List Frame}
    (hfs : ∀ f ∈ fs, Q f) : ∀ f ∈ (s.out.sendAll fs).queue, Q f := by
  intro f hf
  rw [Chan.sendAll_queue] at hf
  rcases List.mem_append.mp hf with hf | hf
  · exact hs.out f hf
  · split at hf
    · cases hf
    · exact hfs f hf

/-- One more frame is sent. -/
theorem send (hs : Each cfg P Q s) (hf : Q f) :
    ∀ g ∈ (s.out.send f).queue, Q g := by
  rw [Chan.send_eq_sendAll]
  exact hs.sendAll fun g hg => List.mem_singleton.mp hg ▸ hf

theorem update (hs : Each cfg P Q s) (hc : P c.inner) {emit : Emit}
    (hemit : ∀ f ∈ emit.frames, Q f) : Each cfg P Q (s.update h c emit) :=
  { hs.set (h := h) hc with out := hs.sendAll hemit }

theorem forceCloseAll (hP : ∀ s, P s → P s.forceClose) (hrefs : List Ref) :
    ∀ {l : List Cell}, (∀ c ∈ l, P c.inner) →
      ∀ c ∈ Session.forceCloseAll l hrefs, P c.inner := by
  induction hrefs with
  | nil => exact fun hl => hl
  | cons h hrefs ih =>
      intro l hl
      refine ih (fun c hc => ?_)
      obtain ⟨n, hn⟩ := List.mem_iff_getElem?.mp hc
      rw [List.getElem?_modify] at hn
      split at hn
      · obtain ⟨d, hd, rfl⟩ := Option.map_eq_some_iff.mp hn
        exact hP _ (hl d (List.mem_of_getElem? hd))
      · have hn : l[n]? = some c := by simpa using hn
        exact hl c (List.mem_of_getElem? hn)

theorem initiateShutdown (hs : Each cfg P Q s) (hP : StreamInv cfg P Q)
    (code : ErrorCode) : Each cfg P Q (s.initiateShutdown code) := by
  unfold Session.initiateShutdown
  split
  · exact hs
  · exact ⟨hs.config, forceCloseAll hP.forceClose _ hs.streams,
      hs.send (hP.plain _ ⟨trivial, rfl⟩)⟩

/-! ### What a side does by itself -/

theorem openStart (hs : Each cfg P Q s) (hP : StreamInv cfg P Q) :
    Each cfg P Q s.openStart.2 := by
  have hnew : ∀ id owner,
      P (Cell.new (StreamInner.new id .locally s.config) owner).inner := by
    intro id owner
    rw [hs.config]
    exact hP.new id .locally
  unfold Session.openStart
  split
  · exact hs
  · split
    · exact hs
    · split
      · exact hs
      · dsimp only
        split
        · exact { hs.push (hnew _ .gone) with }
        · split
          · exact { hs.push (hnew _ .gone) with }
          · exact { hs.push (hnew _ .opening) with
              out := hs.send (hP.plain _ (Frame.plain_data _ (by decide))) }

/-- A pending `open()` is one of the streams. -/
theorem pendingOpen (hs : Each cfg P Q s) (hc : s.pendingOpen h = some c) :
    P c.inner := by
  unfold Session.pendingOpen at hc
  split at hc
  · rename_i d hd
    split at hc
    · obtain rfl := Option.some.inj hc
      exact hs.at_ref hd
    · cases hc
  · cases hc

theorem openPoll (hs : Each cfg P Q s) (h : Ref) :
    Each cfg P Q (s.openPoll h).2 := by
  unfold Session.openPoll
  split
  · exact hs
  · rename_i c hc
    have hin := hs.pendingOpen hc
    split
    · exact hs
    · exact hs.set hin
    · exact { hs.set (h := h) (c := { c with owner := .gone }) hin with }

theorem openTimeout (hs : Each cfg P Q s) (hP : StreamInv cfg P Q) (h : Ref) :
    Each cfg P Q (s.openTimeout h).2 := by
  unfold Session.openTimeout
  split
  · exact hs
  · rename_i c hc
    have hin := hs.pendingOpen hc
    split
    · exact hs.openPoll h
    · exact { hs.set (h := h) (c := { c with owner := .gone }) hin with
        out := hs.send (hP.plain _ (Frame.plain_data _ (by decide))) }

theorem openCancel (hs : Each cfg P Q s) (h : Ref) :
    Each cfg P Q (s.openCancel h) := by
  unfold Session.openCancel
  split
  · exact hs
  · rename_i c hc
    have hin := hs.pendingOpen hc
    exact hs.set hin

theorem acceptPoll (hs : Each cfg P Q s) (hP : StreamInv cfg P Q) :
    Each cfg P Q s.acceptPoll.2 := by
  unfold Session.acceptPoll
  split
  · exact hs
  · split
    · exact hs
    · dsimp only
      split
      · exact { hs with }
      · rename_i hc
        have hin := hs.at_ref hc
        split
        · exact ⟨hs.config, (hs.set (by exact hin)).streams, hs.out⟩
        · exact ⟨hs.config, (hs.set (by exact hin)).streams,
            hs.send (hP.plain _ (Frame.plain_data _ (by decide)))⟩

/-- A live handle's stream is one of the streams. -/
theorem handleAt (hs : Each cfg P Q s) (hc : s.handleAt h = some c) :
    P c.inner := by
  unfold Session.handleAt at hc
  split at hc
  · rename_i d hd
    split at hc
    · obtain rfl := Option.some.inj hc
      exact hs.at_ref hd
    · cases hc
  · cases hc

/-- A call on a handle does to its stream what the stream's own operation
does, and sends what that operation emits. -/
theorem call (hs : Each cfg P Q s) (hP : StreamInv cfg P Q) (h : Ref) :
    (∀ n, Each cfg P Q (s.pollRead h n)) ∧
      Each cfg P Q (s.pollShutdown h) ∧ Each cfg P Q (s.reset h) ∧
      Each cfg P Q (s.dropHandle h) := by
  unfold Session.pollRead Session.pollShutdown Session.reset
    Session.dropHandle
  cases hc : s.handleAt h with
  | none => exact ⟨fun _ => hs, hs, hs, hs⟩
  | some c =>
      have hin := hs.handleAt hc
      refine ⟨fun n => hs.update (hP.pollRead _ n hin) fun f hf => ?_,
        hs.update (hP.localFin _ hin) fun f hf => ?_,
        hs.update (hP.localReset _ hin) fun f hf => ?_,
        hs.update ?_ fun f hf => ?_⟩
      · exact hP.plain f (StreamInner.plain_pollRead _ n f hf)
      · exact hP.plain f (StreamInner.plain_localFin _ f hf)
      · exact hP.plain f (StreamInner.plain_localReset _ f hf)
      · show P c.inner.onUserDrop.1
        unfold StreamInner.onUserDrop
        split
        · exact hP.localFin _ hin
        · exact hin
      · exact hP.plain f (StreamInner.plain_onUserDrop _ f hf)

theorem pollWrite (hs : Each cfg P Q s) (hP : StreamInv cfg P Q)
    {buf : Bytes} (hbuf : ∀ c, s.handleAt h = some c →
      ∀ f ∈ (c.inner.pollWrite (!s.out.closed) buf).2.2.frames, Q f) :
    Each cfg P Q (s.pollWrite h buf) := by
  unfold Session.pollWrite
  cases hc : s.handleAt h with
  | none => exact hs
  | some c =>
      exact hs.update (hP.pollWrite _ _ buf (hs.handleAt hc)) (hbuf c hc)

theorem writerNext (hs : Each cfg P Q s) (hP : StreamInv cfg P Q) :
    Each cfg P Q s.writerNext.2 := by
  have hpop : ∀ {f rest}, s.out.queue = f :: rest →
      Each cfg P Q { s with out := { s.out with queue := rest } } := by
    intro f rest hq
    refine { hs with out := fun g hg => hs.out g ?_ }
    rw [hq]
    exact List.mem_cons_of_mem _ hg
  unfold Session.writerNext
  split
  · exact hs
  · rename_i hq
    dsimp only
    split
    · exact hpop hq
    · exact { (hpop hq).initiateShutdown hP .internalError with }
  · exact { hs with }
  · rename_i hq
    dsimp only
    split
    · exact hpop hq
    · exact { hpop hq with }
  · exact { hs with out := fun f hf => by cases hf }
  · exact hs

theorem perform (hs : Each cfg P Q s) (hP : StreamInv cfg P Q) {a : Act}
    (ha : Admits P Q s (.act a)) : Each cfg P Q (s.perform a) := by
  cases a with
  | openStart => exact hs.openStart hP
  | openPoll h => exact hs.openPoll h
  | openTimeout h => exact hs.openTimeout hP h
  | openCancel h => exact hs.openCancel h
  | accept => exact hs.acceptPoll hP
  | pollRead h remaining => exact (hs.call hP h).1 remaining
  | pollWrite h buf => exact hs.pollWrite hP ha
  | shutdown h => exact (hs.call hP h).2.1
  | reset h => exact (hs.call hP h).2.2.1
  | drop h => exact (hs.call hP h).2.2.2
  | close => exact hs.initiateShutdown hP .normal
  | writerNext => exact hs.writerNext hP
  | readerNext => exact hs
  | readerEof => exact hs
  | keepaliveTimeout =>
      show Each cfg P Q s.keepaliveTimeout
      unfold Session.keepaliveTimeout
      split
      · exact { hs.initiateShutdown hP .timeout with }
      · exact hs
  | writerStop =>
      show Each cfg P Q s.writerStop
      unfold Session.writerStop
      split
      · exact { hs with }
      · exact hs
  | readerStop =>
      show Each cfg P Q s.readerStop
      unfold Session.readerStop
      split
      · exact { hs with }
      · exact hs
  | closerNext =>
      show Each cfg P Q s.closerNext
      unfold Session.closerNext
      split
      · exact hs
      · exact { hs with }
  | closerStop =>
      show Each cfg P Q s.closerStop
      unfold Session.closerStop
      split
      · exact { hs with }
      · exact hs
  | keepaliveTick =>
      show Each cfg P Q s.keepaliveTick
      unfold Session.keepaliveTick
      split
      · dsimp only
        split
        · exact { hs with }
        · refine { hs with out := hs.send (hP.plain _ ⟨?_, rfl⟩) }
          exact (by decide : Flags.empty.Defined)
      · exact hs
  | keepalivePong =>
      show Each cfg P Q s.keepalivePong
      unfold Session.keepalivePong
      split
      · split
        · split
          · exact { hs with }
          · exact hs
        · exact { hs with }
      · exact hs
  | keepaliveStop =>
      show Each cfg P Q s.keepaliveStop
      unfold Session.keepaliveStop
      split
      · exact { hs with }
      · exact hs

/-! ### What the peer does -/

/-- A frame is delivered to a stream; what its payload does to the stream is
left to the property. -/
theorem deliverTo (hP : StreamInv cfg P Q) {stream : StreamInner}
    (hin : P stream) (flags : Flags) {payload : Bytes}
    (hpush : stream.canRecv = true →
      P (stream.pushData payload) ∧ P (stream.markAcked.pushData payload)) :
    P (Session.deliverTo stream flags payload).2.1 ∧
      ∀ f ∈ (Session.deliverTo stream flags payload).2.2.frames,
        f.Plain := by
  -- everything behind the payload
  have htail : ∀ stream', P stream' →
      let stream'' := if flags.contains Flags.fin then stream'.remoteFin
        else stream'
      let tail := if flags.contains Flags.rst then stream''.remoteReset
        else (stream'', .none)
      P tail.1 ∧ ∀ f ∈ tail.2.frames, f.Plain := by
    intro stream' h'
    have hfin : P (if flags.contains Flags.fin then stream'.remoteFin
        else stream') := by
      split
      · exact hP.remoteFin _ h'
      · exact h'
    dsimp only
    split
    · exact ⟨hP.remoteReset _ hfin, fun f hf => by cases hf⟩
    · exact ⟨hfin, fun f hf => by cases hf⟩
  have hacked : P (if flags.contains Flags.ack then stream.markAcked
      else stream) := by
    split
    · exact hP.markAcked _ hin
    · exact hin
  unfold Session.deliverTo
  dsimp only
  by_cases hpay : payload = []
  · simp only [hpay, List.isEmpty_nil, Bool.not_true, Bool.false_and,
      Bool.false_eq_true, if_false, if_true]
    exact htail _ hacked
  have hempty : payload.isEmpty = false := by
    simpa using hpay
  have hrecv : (if flags.contains Flags.ack then stream.markAcked
      else stream).canRecv = stream.canRecv := by
    split <;> rfl
  simp only [hempty, hrecv, Bool.not_false, Bool.true_and,
    Bool.false_eq_true, if_false]
  cases hopen : stream.canRecv with
  | false =>
      exact ⟨hP.localReset _ hacked, StreamInner.plain_localReset _⟩
  | true =>
      refine htail _ ?_
      split
      · exact (hpush hopen).2
      · exact (hpush hopen).1

theorem handleSyn (hs : Each cfg P Q s) (hP : StreamInv cfg P Q) (id : StreamId) :
    (∀ p, s.handleSyn id = .inl p → Each cfg P Q p.2) ∧
      ∀ s', s.handleSyn id = .inr s' → Each cfg P Q s' := by
  have hnew : ∀ owner,
      P (Cell.new (StreamInner.new id .remotely s.config) owner).inner := by
    intro owner
    rw [hs.config]
    exact hP.new id .remotely
  unfold Session.handleSyn
  have hrst : ∀ g ∈ (s.out.send (.rst id)).queue, Q g :=
    hs.send (hP.plain _ (Frame.plain_data _ (by decide)))
  dsimp only
  constructor
  · intro p hp
    repeat' split at hp
    all_goals cases hp
    · exact hs
    · exact { hs with out := hrst }
    · exact { hs with out := hrst }
    · exact hs
    · exact { hs.push (hnew .gone) with out := hrst }
  · intro s' hs'
    repeat' split at hs'
    all_goals cases hs'
    exact { hs.push (hnew .queued) with }

theorem handleStream (hs : Each cfg P Q s) (hP : StreamInv cfg P Q)
    (id : StreamId) (flags : Flags) {payload : Bytes}
    (hpush : ∀ h c, s.find id = some (h, c) → c.inner.canRecv = true →
      P (c.inner.pushData payload) ∧
        P (c.inner.markAcked.pushData payload)) :
    Each cfg P Q (s.handleStream id flags payload).2 := by
  unfold Session.handleStream
  cases hf : s.find id with
  | none =>
      dsimp only
      split
      · refine { hs with out := hs.send (hP.plain _ ?_) }
        exact Frame.plain_data id (by decide)
      · exact hs
  | some p =>
      obtain ⟨h, c⟩ := p
      obtain ⟨hin, hemit⟩ := deliverTo hP (hs.find hf) flags (hpush h c hf)
      exact hs.update hin fun f hf => hP.plain f (hemit f hf)

theorem handleData (hs : Each cfg P Q s) (hP : StreamInv cfg P Q)
    {id : StreamId} {flags : Flags} {payload : Bytes}
    (hpush : ∀ stream, P stream → s.recipient id flags = some stream →
      stream.canRecv = true → P (stream.pushData payload) ∧
        P (stream.markAcked.pushData payload)) :
    Each cfg P Q (s.handleData id flags payload).2 := by
  unfold Session.recipient at hpush
  unfold Session.handleData
  by_cases hid : id = 0
  · rw [if_pos hid]
    exact hs
  rw [if_neg hid] at hpush ⊢
  by_cases hsyn : flags.contains Flags.syn = true
  · rw [if_pos hsyn] at hpush ⊢
    cases hcase : s.handleSyn id with
    | inl p => exact (hs.handleSyn hP id).1 p hcase
    | inr s' =>
        rw [hcase] at hpush
        have hs' := (hs.handleSyn hP id).2 s' hcase
        exact hs'.handleStream hP id flags fun h c hf =>
          hpush c.inner (hs'.find hf) (by simp [hf])
  · rw [if_neg hsyn] at hpush ⊢
    exact hs.handleStream hP id flags fun h c hf =>
      hpush c.inner (hs.find hf) (by simp [hf])

theorem handleWindowUpdate (hs : Each cfg P Q s) (hP : StreamInv cfg P Q)
    (id : StreamId) (delta : UInt32) :
    Each cfg P Q (s.handleWindowUpdate id delta) := by
  unfold Session.handleWindowUpdate
  cases hf : s.find id with
  | none => exact hs
  | some p =>
      exact hs.update (hP.grantSendCredit _ delta (hs.find hf))
        fun f hf => by cases hf

theorem dispatch (hs : Each cfg P Q s) (hP : StreamInv cfg P Q) {f : Frame}
    (hdone : s.readerDone = false) (hf : Admits P Q s (.frame f)) :
    Each cfg P Q (s.dispatch f).2 := by
  cases f with
  | data id flags payload => exact hs.handleData hP (hf hdone)
  | windowUpdate id flags delta => exact hs.handleWindowUpdate hP id delta
  | ping flags nonce =>
      show Each cfg P Q (s.handlePing flags nonce)
      unfold Session.handlePing
      split
      · exact { hs with }
      · refine { hs with out := hs.send (hP.plain _ ⟨?_, rfl⟩) }
        exact (by decide : Flags.ack.Defined)
  | goAway code =>
      have hgone : Each cfg P Q s.notePeerGone := { hs with }
      exact hgone.initiateShutdown hP code

theorem readerFail (hs : Each cfg P Q s) (hP : StreamInv cfg P Q) (e : Error) :
    Each cfg P Q (s.readerFail e) :=
  { hs.initiateShutdown hP (Session.errorCodeOf e) with }

/-- **A property that every stream operation keeps is kept by every input.** -/
theorem take (hs : Each cfg P Q s) (hP : StreamInv cfg P Q) {x : Input}
    (hx : Admits P Q s x) : Each cfg P Q (s.take x) := by
  cases x with
  | act a => exact hs.perform hP hx
  | frame f =>
      show Each cfg P Q (if s.readerDone then s else _)
      split
      · exact hs
      · rename_i hdone
        have hd := hs.dispatch hP (Bool.not_eq_true _ ▸ hdone) hx
        unfold Session.settle
        split
        · rename_i heq
          rw [heq] at hd
          exact hd
        · rename_i heq
          rw [heq] at hd
          exact hd.readerFail hP _
  | garbage e =>
      show Each cfg P Q (if s.readerDone then s else _)
      split
      · exact hs
      · exact hs.readerFail hP e
  | eof =>
      show Each cfg P Q (if s.readerDone then s else _)
      split
      · exact hs
      · exact { hs.initiateShutdown hP .normal with }

/-- **In every run whose inputs are admitted, all streams and all frames to
be sent have their property.** -/
theorem run (hP : StreamInv cfg P Q) {ok : Session → Input → Prop}
    (hok : ∀ s x, Each cfg P Q s → ok s x → Admits P Q s x) {role : Role}
    {xs : List Input} (hrun : Along Session.take ok (.new cfg role) xs) :
    Each cfg P Q (Lib.Run.run Session.take (.new cfg role) xs) :=
  run_invariant Session.take (fun s x hs hx => hs.take hP (hok s x hs hx)) xs _
    (of_new cfg role) hrun

end Each

/-- The configuration is fixed. -/
theorem Session.take_config (s : Session) (x : Input) :
    (s.take x).config = s.config := by
  have hP : StreamInv s.config (fun _ => True) (fun _ => True) := by
    constructor <;> intros <;> trivial
  have hs : Each s.config (fun _ => True) (fun _ => True) s :=
    ⟨rfl, fun _ _ => trivial, fun _ _ => trivial⟩
  refine (hs.take hP (x := x) ?_).config
  unfold Admits
  split
  · exact fun _ _ _ _ _ => ⟨trivial, trivial⟩
  · exact fun _ _ _ _ => trivial
  · trivial

end NetMux
