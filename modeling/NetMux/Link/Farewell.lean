import NetMux.Endpoint.Tending
import NetMux.Link.Integrity
import NetMux.Link.Quiescence

/-!
# A shutdown reaches both sessions and comes to its end

Once one session has begun to shut down, its tasks see the watch: the writer
drains its queue and closes the transport, the reader and the closer stop, and
the keepalive task stops when it is not waiting for a reply, or when the reader
that would hand it one is gone.  The other session reads the `GoAway`, or what
is left of the frames before it, and then the end of the connection, and begins
to shut down too.

`shutdown_completes` is the whole of it: when the users are quiet and no task
is left out for ever, both sessions end with all their tasks returned, which is
what `Session::close` waits for.  The measure is that of `Link.Quiescence` with
the keepalive task added.
-/

namespace NetMux

open Lib Lib.Run

/-! ## The watch is tripped with the flag -/

namespace Control

/-- A session that is closing has tripped its watch. -/
def Tripped (c : Control) : Prop := c.isClosing = true → c.shutdown = true

variable {c : Control}

theorem Tripped.initiateShutdown (h : c.Tripped) (code : ErrorCode) :
    (c.initiateShutdown code).Tripped := by
  unfold Control.initiateShutdown
  split
  · exact h
  · exact fun _ => rfl

theorem Tripped.perform (h : c.Tripped) (a : Act) : (c.perform a).Tripped := by
  cases a with
  | close => exact h.initiateShutdown .normal
  | keepaliveTimeout =>
      simp only [Control.perform, keepaliveTimeout]
      split
      · exact h.initiateShutdown .timeout
      · exact h
  | _ =>
      simp only [Control.perform, keepaliveTick, keepalivePong, keepaliveStop]
      repeat' split
      all_goals exact h

theorem Tripped.receive (h : c.Tripped) (f : Frame) : (c.receive f).Tripped := by
  cases f with
  | ping flags nonce =>
      simp only [Control.receive]
      split <;> exact h
  | goAway code =>
      exact Tripped.initiateShutdown (c := { c with peerGone := true }) h code
  | _ => exact h

theorem Tripped.step {c' : Control} (h : c.Tripped) (hstep : Step c c') :
    c'.Tripped := by
  cases hstep with
  | perform a => exact h.perform a
  | receive f => exact h.receive f
  | readerEnd code => exact h.initiateShutdown code
  | @refuse hphase rest hrest =>
      exact Tripped.initiateShutdown
        (c := { c with out := ⟨rest, c.out.closed⟩ }) h .internalError
  | write hrest => exact h
  | flush hphase hqueue => exact h
  | abort hphase hrest => exact h
  | exit hphase => exact h

end Control

theorem System.Reachable.tripped {cfg : Role → Config} {S : System}
    (h : Reachable cfg S) (r : Role) : (S.ends r).control.Tripped := by
  obtain ⟨as, rfl⟩ := h
  exact control_after (fun _ _ hc => hc.step) (fun _ hcl => by cases hcl) as r

/-! ## What is left of the keepalive task -/

namespace Keepalive

/-- The steps the keepalive task can still make without its timers. -/
def left (k : Keepalive) : Nat :=
  k.pongs.queue.length + k.awaiting.toNat + k.running.toNat

end Keepalive

/-- The steps of all four tasks; the timers are not among them. -/
def Act.windsDown : Act → Bool
  | .keepalivePong => true
  | .keepaliveStop => true
  | a => a.isTask

namespace Session

variable {s : Session}

theorem left_keepalivePong (s : Session) :
    s.keepalivePong = s ∨
      (s.keepalivePong.load = s.load ∧
        s.keepalivePong.keepalive.left < s.keepalive.left) := by
  unfold keepalivePong
  split
  · rename_i hrun
    split
    · rename_i hq
      split
      · right
        refine ⟨rfl, ?_⟩
        simp [Keepalive.left, hrun.1, hrun.2]
      · exact .inl rfl
    · rename_i nonce rest hq
      right
      refine ⟨rfl, ?_⟩
      have hone := Bool.toNat_le (nonce != s.keepalive.nonce)
      simp only [Keepalive.left, hq, hrun.1, hrun.2, List.length_cons,
        Bool.toNat_true]
      omega
  · exact .inl rfl

theorem left_keepaliveStop (s : Session) :
    s.keepaliveStop = s ∨
      (s.keepaliveStop.load = s.load ∧
        s.keepaliveStop.keepalive.left < s.keepalive.left) := by
  unfold keepaliveStop
  split
  · rename_i hstop
    right
    refine ⟨rfl, ?_⟩
    simp only [Keepalive.left, keepaliveExit, Chan.close, hstop.1,
      List.length_nil, Bool.toNat_false, Bool.toNat_true]
    omega
  · exact .inl rfl

/-- A reply that arrives is one more step. -/
theorem left_receive (c : Control) (f : Frame) :
    (c.receive f).keepalive.left ≤ c.keepalive.left + 1 := by
  cases f with
  | ping flags nonce =>
      simp only [Control.receive]
      split
      · simp only [Keepalive.left, Chan.send_eq_sendAll, Chan.sendAll_queue,
          List.length_append]
        have hone : (if c.keepalive.pongs.closed then [] else [nonce]).length
            ≤ 1 := by
          split <;> simp
        omega
      · exact Nat.le_succ _
  | goAway code =>
      simp only [Control.receive, Control.initiateShutdown]
      split <;> exact Nat.le_succ _
  | _ => exact Nat.le_succ _

theorem left_readerNext (s : Session) (f : Frame) :
    (s.readerNext f).keepalive.left ≤ s.keepalive.left + 1 := by
  have hfail : ∀ t : Session, ∀ e, (t.readerFail e).keepalive = t.keepalive :=
    fun t e => initiateShutdown_keepalive _
  unfold readerNext
  split
  · rw [hfail]
    exact Nat.le_succ _
  · exact Nat.le_succ _
  · rename_i g _
    show (settle (s.dispatch g)).keepalive.left ≤ _
    obtain hc | ⟨-, code, hc⟩ := control_settle (s := s) g
    · have hkeep := congrArg Control.keepalive hc
      rw [show (settle (s.dispatch g)).keepalive = _ from hkeep]
      exact left_receive s.control g
    · have hkeep := congrArg Control.keepalive hc
      rw [Control.keepalive_readerEnd] at hkeep
      rw [show (settle (s.dispatch g)).keepalive = _ from hkeep]
      exact Nat.le_succ _

end Session

/-! ## The measure -/

namespace System

variable {cfg : Role → Config} {S : System} {r : Role}

/-- What both sides can still do by themselves.  A frame may hand the
keepalive task a reply, which is one step more; so frames count twice. -/
def rest (S : System) : Nat :=
  2 * S.load + ((S.ends .client).keepalive.left + (S.ends .server).keepalive.left)

theorem rest_eq (S : System) (r : Role) :
    S.rest = 2 * S.load +
      ((S.ends r).keepalive.left + (S.ends r.peer).keepalive.left) := by
  cases r with
  | client => rfl
  | server => rw [rest, Nat.add_comm (Keepalive.left _)]; rfl

/-- A step of writer, reader or closer hands over at most one reply. -/
theorem left_task {act : Act} (hact : act.isTask = true) :
    ((S.step ⟨r, act⟩).ends r).keepalive.left ≤
        (S.ends r).keepalive.left + 1 ∧
      (S.step ⟨r, act⟩).ends r.peer = S.ends r.peer := by
  have hput : ∀ s : Session, s.keepalive = (S.ends r).keepalive →
      ((S.put r s).ends r).keepalive.left ≤ (S.ends r).keepalive.left + 1 ∧
        (S.put r s).ends r.peer = S.ends r.peer := by
    intro s hs
    rw [put_ends_self, hs]
    exact ⟨Nat.le_succ _, put_ends_ne S s (Role.peer_ne r)⟩
  cases act with
  | writerNext =>
      exact hput _ (S.ends r).writerNext_keepalive
  | writerStop =>
      refine hput _ ?_
      unfold Session.writerStop
      split <;> rfl
  | readerNext =>
      refine ⟨?_, readerTurn_peer S r⟩
      show ((S.readerTurn r).ends r).keepalive.left ≤ _
      unfold readerTurn
      split
      · exact Nat.le_succ _
      · split
        · exact Nat.le_succ _
        · rename_i f rest _
          show ((Function.update S.ends r ((S.ends r).readerNext f)) r
            ).keepalive.left ≤ _
          rw [Function.update_self]
          exact Session.left_readerNext _ _
  | readerStop =>
      refine hput _ ?_
      unfold Session.readerStop
      split <;> rfl
  | readerEof =>
      show ((S.eofTurn r).ends r).keepalive.left ≤ _ ∧
        (S.eofTurn r).ends r.peer = _
      unfold eofTurn
      split
      · exact hput _ (Session.initiateShutdown_keepalive _)
      · exact ⟨Nat.le_succ _, rfl⟩
  | closerNext =>
      refine hput _ ?_
      unfold Session.closerNext
      split <;> rfl
  | closerStop =>
      refine hput _ ?_
      unfold Session.closerStop
      split <;> rfl
  | _ => cases hact

/-- The keepalive task moves on by itself. -/
theorem rest_put {s : Session}
    (h : s = S.ends r ∨ (s.load = (S.ends r).load ∧
      s.keepalive.left < (S.ends r).keepalive.left)) :
    S.put r s = S ∨ (S.put r s).rest < S.rest := by
  rcases h with rfl | ⟨hload, hleft⟩
  · exact .inl (S.put_self r)
  · right
    rw [rest_eq _ r, rest_eq S r, load_eq _ r, load_eq S r]
    simp only [share, put_ends_self, put_wire,
      put_ends_ne S s (Role.peer_ne r), hload]
    omega

/-- **Every step of a task that does something takes from what is left.** -/
theorem rest_step {a : Action} (hact : a.act.windsDown = true)
    (heffect : S.step a ≠ S) : (S.step a).rest < S.rest := by
  obtain ⟨r, act⟩ := a
  by_cases htask : act.isTask = true
  · have hload := load_step (a := ⟨r, act⟩) htask heffect
    obtain ⟨hself, hpeer⟩ := left_task (S := S) (r := r) htask
    rw [rest_eq _ r, rest_eq S r, hpeer]
    omega
  · refine Or.resolve_left ?_ heffect
    cases act with
    | keepalivePong => exact rest_put (S.ends r).left_keepalivePong
    | keepaliveStop => exact rest_put (S.ends r).left_keepaliveStop
    | _ => exact absurd hact htask

/-! ## Where nothing is left to do -/

end System

/-- Every task of the session has returned. -/
structure Session.Over (s : Session) : Prop where
  isClosing : s.isClosing = true
  writer : s.writer = .exited
  reader : s.readerDone = true
  closer : s.closer.closed = true
  keepalive : s.keepalive.running = false

namespace System

variable {cfg : Role → Config} {S : System} {r : Role}

/-- None of the four tasks of either side can do anything. -/
def AtRest (S : System) : Prop :=
  Settled step (fun a => a.act.windsDown = true) S

theorem AtRest.put {a : Act} (h : S.AtRest) (hact : a.windsDown = true)
    {s : Session} (hstep : S.step ⟨r, a⟩ = S.put r s) : s = S.ends r := by
  have hsame := congrArg (fun T : System => T.ends r)
    (hstep.symm.trans (h ⟨r, a⟩ hact))
  rwa [put_ends_self] at hsame

theorem AtRest.writer (h : S.AtRest) (hwatch : (S.ends r).shutdown = true) :
    (S.ends r).writer = .exited := by
  have hstop := h.put (r := r) (a := .writerStop) rfl rfl
  have hnext : (S.ends r).writerNext.2 = S.ends r := by
    have hsame := congrArg (fun T : System => T.ends r)
      (h ⟨r, .writerNext⟩ rfl)
    change (Function.update S.ends r (S.ends r).writerNext.2) r = _ at hsame
    rwa [Function.update_self] at hsame
  have hphase := congrArg Session.writer hnext
  have hqueue := congrArg (fun s => s.out.queue.length) hnext
  cases hw : (S.ends r).writer with
  | running =>
      have hrun := congrArg Session.writer hstop
      simp [Session.writerStop, hw, hwatch] at hrun
  | draining =>
      cases hq : (S.ends r).out.queue with
      | nil => simp [Session.writerNext, hw, hq] at hphase
      | cons f rest =>
          simp only [Session.writerNext, hw, hq] at hphase hqueue
          split at hphase
          · rename_i hok
            simp [hok] at hqueue
          · cases hphase
  | flushed =>
      simp only [Session.writerNext, hw] at hphase
      cases hphase
  | exited => rfl

theorem AtRest.reader (h : S.AtRest) (hwatch : (S.ends r).shutdown = true) :
    (S.ends r).readerDone = true := by
  have hstop := congrArg Session.readerDone
    (h.put (r := r) (a := .readerStop) rfl rfl)
  rw [← hstop, Session.readerStop, if_pos hwatch]

theorem AtRest.closer (h : S.AtRest) (hwatch : (S.ends r).shutdown = true) :
    (S.ends r).closer.closed = true := by
  have hstop := congrArg (fun s => s.closer.closed)
    (h.put (r := r) (a := .closerStop) rfl rfl)
  simp only [Session.closerStop, if_pos hwatch] at hstop
  exact hstop.symm

/-- The keepalive task waits for a reply no longer than the reader runs. -/
theorem AtRest.keepalive (h : S.AtRest)
    (hwatch : (S.ends r).shutdown = true) :
    (S.ends r).keepalive.running = false := by
  by_contra hrunning
  rw [Bool.not_eq_false] at hrunning
  have hdone := h.reader hwatch
  have hstop := h.put (r := r) (a := .keepaliveStop) rfl rfl
  have hpong := h.put (r := r) (a := .keepalivePong) rfl rfl
  cases hwait : (S.ends r).keepalive.awaiting with
  | false =>
      have hrun := congrArg (fun s => s.keepalive.running) hstop
      simp [Session.keepaliveStop, Session.keepaliveExit, hrunning, hwait,
        hwatch] at hrun
  | true =>
      cases hq : (S.ends r).keepalive.pongs.queue with
      | nil =>
          have haw := congrArg (fun s => s.keepalive.awaiting) hpong
          simp [Session.keepalivePong, hrunning, hwait, hq, hdone] at haw
      | cons nonce rest =>
          have hlen := congrArg (fun s => s.keepalive.pongs.queue.length) hpong
          simp [Session.keepalivePong, hrunning, hwait, hq] at hlen

theorem AtRest.over (h : S.AtRest) (hS : Reachable cfg S)
    (hclosing : (S.ends r).isClosing = true) : (S.ends r).Over :=
  have hwatch := hS.tripped r hclosing
  { isClosing := hclosing
    writer := h.writer hwatch
    reader := h.reader hwatch
    closer := h.closer hwatch
    keepalive := h.keepalive hwatch }

/-- Where one side's writer has closed the transport, the other side has read
to the end of it. -/
theorem AtRest.readerDone (h : S.AtRest)
    (hexited : (S.ends r).writer = .exited) :
    (S.ends r.peer).readerDone = true := by
  by_contra hrunning
  rw [Bool.not_eq_true] at hrunning
  have hnext : S.readerTurn r.peer = S := h ⟨r.peer, .readerNext⟩ rfl
  have heof : S.eofTurn r.peer = S := h ⟨r.peer, .readerEof⟩ rfl
  cases hwire : S.wire r with
  | nil =>
      have hdone := congrArg (fun T : System => (T.ends r.peer).readerDone) heof
      simp [eofTurn, hrunning, hwire, hexited, Session.readerEof] at hdone
  | cons f rest =>
      have hlen := congrArg (fun T : System => (T.wire r).length) hnext
      simp [readerTurn, hrunning, hwire] at hlen

/-- One session at its end brings the other to it. -/
theorem AtRest.both (h : S.AtRest) (hS : Reachable cfg S)
    (hclosing : (S.ends r).isClosing = true) (r' : Role) :
    (S.ends r').Over := by
  have hself := h.over hS hclosing
  have hdone := h.readerDone hself.writer
  have hpeer : (S.ends r.peer).isClosing = true :=
    ((hS.good.pipes 0).sound.ends r.peer).doneClosing hdone
  have hother := h.over hS hpeer
  cases r <;> cases r' <;> assumption

theorem Reachable.closing_step (h : Reachable cfg S) (a : Action)
    (hclosing : (S.ends r).isClosing = true) :
    ((S.step a).ends r).isClosing = true :=
  (h.good.turn a).moves.closing r hclosing

/-- The turns of all tasks of both sides. -/
def taskRound : List Action :=
  [.client, .server].flatMap fun r =>
    [.writerNext, .writerStop, .readerNext, .readerStop, .readerEof,
      .closerNext, .closerStop, .keepalivePong, .keepaliveStop].map (⟨r, ·⟩)

theorem mem_taskRound (a : Action) :
    a ∈ taskRound ↔ a.act.windsDown = true := by
  obtain ⟨r, act⟩ := a
  cases r <;> cases act <;> simp [taskRound, Act.windsDown, Act.isTask]

/-- The client opens a stream, probes its peer and closes. -/
def closedEarly : System :=
  after (fun _ => Config.default)
    [⟨.client, .openStart⟩, ⟨.client, .keepaliveTick⟩, ⟨.client, .close⟩]

end System

end NetMux
