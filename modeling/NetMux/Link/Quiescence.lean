import Mathlib.Order.OrderIsoNat
import NetMux.Link.Dispatch

/-!
# Replies come to an end

A frame can make its receiver send a frame: a refused or unknown stream is
answered with `RST`, a ping with its reply, a `GoAway` or an error with
`GoAway`.  The tasks of two sessions that are left to themselves, with no call
of a user and no timer, cannot go on like this for ever.

Each frame gets a weight: the steps it can still cause once it is on the wire,
its own dispatch included.  An `RST` causes at most the removal of its stream,
a reply to a ping and a `GoAway` nothing that is not paid for by the closing
flag of the receiver, and every other frame at most an `RST` and a removal.
With the ids that wait for the closers, the closing flags and what is left of
the tasks themselves this is a measure that every step takes from.
-/

namespace NetMux

open Lib.Run

/-! ## Weights -/

/-- How many steps a frame on the wire can still cause. -/
def Frame.weight : Frame → Nat
  | .data _ flags payload => if flags = Flags.rst ∧ payload = [] then 2 else 5
  | .windowUpdate _ _ _ => 1
  | .ping flags _ => if flags.contains Flags.ack then 1 else 3
  | .goAway _ => 1

theorem Frame.weight_le (f : Frame) : f.weight ≤ 5 := by
  unfold weight
  repeat' split
  all_goals decide

theorem Frame.weight_pos (f : Frame) : 0 < f.weight := by
  unfold weight
  repeat' split
  all_goals decide

/-- What the receiver's codec makes of a frame weighs no more. -/
theorem FrameCodec.transit_weight {c : FrameCodec} {f g : Frame}
    (h : c.transit f = .ok (some g)) : g.weight ≤ f.weight := by
  by_cases hflags : f.FlagsDefined
  · by_cases hlen : f.payloadLen < 2 ^ 32
    · rw [c.transit_eq f hflags hlen] at h
      split at h
      · cases h
      · cases h
        cases f <;> exact le_rfl
    · -- A payload that does not fit the length field.
      cases f with
      | data id flags payload =>
          have hne : payload ≠ [] := by
            rintro rfl
            exact hlen (by simp [Frame.payloadLen])
          have hweight : (Frame.data id flags payload).weight = 5 :=
            if_neg fun h => hne h.2
          rw [hweight]
          exact g.weight_le
      | _ => exact absurd (by simp [Frame.payloadLen]) hlen
  · rw [c.transit_undefined hflags] at h
    cases h

namespace WriterPhase

/-- The steps from a phase of the writer to its end. -/
def left : WriterPhase → Nat
  | .running => 3
  | .draining => 2
  | .flushed => 1
  | .exited => 0

theorem left_le (p : WriterPhase) : p.left ≤ 3 := by
  cases p <;> decide

end WriterPhase

/-- The weights of frames on the wire. -/
def carried (fs : List Frame) : Nat := (fs.map Frame.weight).sum

/-- The weights of frames that are still to be written. -/
def queued (fs : List Frame) : Nat := (fs.map fun f => f.weight + 1).sum

namespace Session

/-- What the frames that are queued, the ids that wait for the closer and the
closing flag can cause. -/
def pending (s : Session) : Nat :=
  queued s.out.queue + s.closer.queue.length + 2 * (!s.isClosing).toNat

/-- What is left of the tasks. -/
def tasks (s : Session) : Nat :=
  s.writer.left + (!s.readerDone).toNat + (!s.closer.closed).toNat

def load (s : Session) : Nat := s.pending + s.tasks

theorem tasks_le (s : Session) : s.tasks ≤ 5 := by
  have hwriter := s.writer.left_le
  have hreader := (!s.readerDone).toNat_le
  have hcloser := (!s.closer.closed).toNat_le
  unfold tasks
  omega

variable {s : Session}

theorem queued_sendAll (c : Chan Frame) (fs : List Frame) :
    queued (c.sendAll fs).queue ≤ queued c.queue + queued fs := by
  rw [Chan.sendAll_queue]
  split
  · simp
  · simp [queued]

theorem length_sendAll (c : Chan StreamId) (ids : List StreamId) :
    (c.sendAll ids).queue.length ≤ c.queue.length + ids.length := by
  rw [Chan.sendAll_queue]
  split <;> simp

theorem load_enqueue (s : Session) (f : Frame) :
    (s.enqueue f).load ≤ s.load + f.weight + 1 := by
  have hout := queued_sendAll s.out [f]
  have hone : queued [f] = f.weight + 1 := by simp [queued]
  simp only [load, pending, tasks, enqueue, Chan.send_eq_sendAll]
  omega

theorem load_update (s : Session) (n : Ref) (c : Cell) (emit : Emit) :
    (s.update n c emit).load ≤
      s.load + queued emit.frames + emit.closes.length := by
  have hout := queued_sendAll s.out emit.frames
  have hcloser := length_sendAll s.closer emit.closes
  simp only [load, pending, tasks, update, Chan.sendAll_closed]
  omega

/-- A `GoAway` is paid for by the closing flag. -/
theorem load_initiateShutdown (s : Session) (code : ErrorCode) :
    (s.initiateShutdown code).load ≤ s.load := by
  cases hcl : s.isClosing with
  | true => rw [initiateShutdown_again hcl]
  | false =>
      have hout := queued_sendAll s.out [.goAway code]
      have hone : queued [.goAway code] = 2 := rfl
      rw [initiateShutdown_eq hcl]
      simp only [load, pending, tasks, Chan.send_eq_sendAll, hcl,
        Bool.not_true, Bool.not_false, Bool.toNat_true, Bool.toNat_false]
      omega

theorem load_readerDone (s : Session) :
    { s with readerDone := true }.load ≤ s.load := by
  simp only [load, pending, tasks, Bool.not_true, Bool.toNat_false]
  omega

theorem load_readerFail (s : Session) (e : Error) :
    (s.readerFail e).load ≤ s.load :=
  (load_readerDone _).trans (load_initiateShutdown s (errorCodeOf e))

/-! ## What a frame can cause -/

/-- The output of a `Data` frame's stream: an `RST` and a removal, and only a
removal when there is no payload. -/
theorem deliverTo_emits (stream : StreamInner) (flags : Flags)
    (payload : Bytes) :
    queued (deliverTo stream flags payload).2.2.frames +
        (deliverTo stream flags payload).2.2.closes.length ≤
      if payload = [] then 1 else 4 := by
  unfold deliverTo
  dsimp only
  generalize (if flags.contains Flags.ack then stream.markAcked else stream) =
    acked
  split
  · rename_i hlate
    have hne : payload ≠ [] := by
      rintro rfl
      simp at hlate
    rw [if_neg hne]
    unfold StreamInner.localReset
    dsimp only
    split_ifs <;> simp [queued, Emit.none, Frame.weight, Frame.rst]
  · dsimp only
    split_ifs <;> simp [queued, StreamInner.remoteReset, Emit.none]

theorem load_handleStream (s : Session) (id : StreamId) (flags : Flags)
    (payload : Bytes) :
    (s.handleStream id flags payload).2.load <
      s.load + (Frame.data id flags payload).weight := by
  unfold handleStream
  cases hf : s.find id with
  | none =>
      dsimp only
      split
      · rename_i hanswer
        have hne : flags ≠ Flags.rst := by
          rintro rfl
          simp [Flags.contains] at hanswer
        have hweight : (Frame.data id flags payload).weight = 5 :=
          if_neg fun h => hne h.1
        have hrst : (Frame.rst id).weight = 2 := rfl
        have hload := s.load_enqueue (.rst id)
        dsimp only
        omega
      · exact Nat.lt_add_of_pos_right (Frame.weight_pos _)
  | some p =>
      obtain ⟨n, c⟩ := p
      have hload := s.load_update n
        { c with inner := (deliverTo c.inner flags payload).2.1 }
        (deliverTo c.inner flags payload).2.2
      have hemits := deliverTo_emits c.inner flags payload
      have hweight : (if payload = [] then 1 else 4) <
          (Frame.data id flags payload).weight := by
        simp only [Frame.weight]
        by_cases hp : payload = []
        · rw [if_pos hp]
          split <;> decide
        · rw [if_neg hp, if_neg fun h => hp h.2]
          decide
      refine lt_of_le_of_lt hload ?_
      omega

/-- A `SYN` causes an `RST` at most, or makes a stream. -/
theorem load_handleSyn (s : Session) (id : StreamId) :
    match s.handleSyn id with
    | .inl returned => returned.2.load ≤ s.load + 3
    | .inr made => made.load = s.load := by
  have hrefuse : ∀ t : Session, t.load = s.load →
      (t.enqueue (.rst id)).load ≤ s.load + 3 := fun t ht => by
    rw [← ht]
    exact t.load_enqueue (.rst id)
  rcases s.handleSyn_cases id with ⟨e, heq⟩ | heq |
      ⟨g, -, -, -, ⟨-, heq⟩ | ⟨-, heq⟩⟩
  · rw [heq]
    exact Nat.le_add_right _ _
  · rw [heq]
    exact hrefuse s rfl
  · rw [heq]
    exact hrefuse (s.turningAway id g) rfl
  · rw [heq]
    rfl

/-- **What a dispatched frame adds is less than its weight.** -/
theorem load_dispatch (s : Session) (f : Frame) :
    (s.dispatch f).2.load < s.load + f.weight := by
  cases f with
  | data id flags payload =>
      have hpos := (Frame.data id flags payload).weight_pos
      show (s.handleData id flags payload).2.load < _
      unfold handleData
      split
      · exact Nat.lt_add_of_pos_right hpos
      · split
        · rename_i hsyn
          have hne : flags ≠ Flags.rst := by
            rintro rfl
            exact absurd hsyn (by decide)
          have hweight : (Frame.data id flags payload).weight = 5 :=
            if_neg fun h => hne h.1
          have hload := s.load_handleSyn id
          cases heq : s.handleSyn id with
          | inl returned =>
              rw [heq] at hload
              dsimp only at hload ⊢
              omega
          | inr made =>
              rw [heq] at hload
              have hrest := made.load_handleStream id flags payload
              dsimp only at hload ⊢
              omega
        · exact s.load_handleStream id flags payload
  | windowUpdate id flags delta =>
      show (s.handleWindowUpdate id delta).load < s.load + 1
      unfold handleWindowUpdate
      split
      · exact Nat.lt_succ_self _
      · rename_i n c _
        exact Nat.lt_succ_of_le (s.load_update n
          { c with inner := c.inner.grantSendCredit delta } .none)
  | ping flags nonce =>
      show (s.handlePing flags nonce).load < _
      unfold handlePing
      split
      · exact Nat.lt_add_of_pos_right (Frame.weight_pos _)
      · rename_i hack
        have hweight : (Frame.ping flags nonce).weight = 3 := if_neg hack
        have hpong : (Frame.pong nonce).weight = 1 := rfl
        have hload := s.load_enqueue (.pong nonce)
        omega
  | goAway code =>
      exact Nat.lt_succ_of_le (s.notePeerGone.load_initiateShutdown code)

theorem load_readerNext (s : Session) (f : Frame) :
    (s.readerNext f).load < s.load + f.weight := by
  have hpos := f.weight_pos
  unfold readerNext
  split
  · have hfail := s.load_readerFail ‹_›
    omega
  · exact Nat.lt_add_of_pos_right hpos
  · rename_i g htransit
    have hle := FrameCodec.transit_weight htransit
    have hload := s.load_dispatch g
    split
    · rename_i heq
      rw [heq] at hload
      dsimp only at hload
      omega
    · rename_i e s' heq
      rw [heq] at hload
      have hfail := s'.load_readerFail e
      dsimp only at hload
      omega

/-! ## What the tasks do -/

/-- The writer moves to a later phase. -/
theorem load_phase (s : Session) {p : WriterPhase} (failed : Bool)
    (h : p.left < s.writer.left) :
    { s with writer := p, encodeFailed := failed }.load < s.load := by
  simp only [load, pending, tasks]
  omega

/-- The writer takes a frame. -/
theorem load_pop {f : Frame} {rest : List Frame}
    (hqueue : s.out.queue = f :: rest) :
    { s with out := { s.out with queue := rest } }.load + f.weight <
      s.load := by
  simp only [load, pending, tasks, hqueue, queued, List.map_cons,
    List.sum_cons]
  omega

/-- A refused frame ends the select loop and starts a shutdown. -/
theorem load_refused (h : s.writer = .running) :
    { s.initiateShutdown .internalError with
      writer := .draining
      encodeFailed := true }.load < s.load := by
  have hshut := s.load_initiateShutdown .internalError
  have hwriter : (s.initiateShutdown .internalError).writer = .running := by
    unfold initiateShutdown
    split <;> exact h
  refine (load_phase _ true ?_).trans_le hshut
  rw [hwriter]
  decide

/-- The writer has nothing to do, or its step takes from the load more than
the frame it puts on the wire weighs. -/
theorem load_writerNext (s : Session) :
    s.writerNext = (none, s) ∨
      s.writerNext.2.load + carried s.writerNext.1.toList < s.load := by
  have hsent : ∀ f : Frame, carried (some f).toList = f.weight := fun f => by
    simp [carried]
  unfold writerNext
  split
  · exact .inl rfl
  · rename_i f rest hphase hqueue
    right
    have hpop := load_pop hqueue
    dsimp only
    split
    · rw [hsent]
      exact hpop
    · refine Nat.lt_trans (load_refused ?_)
        (Nat.lt_of_le_of_lt (Nat.le_add_right ..) hpop)
      exact hphase
  · rename_i hphase _
    exact .inr (load_phase s s.encodeFailed (by rw [hphase]; decide))
  · rename_i f rest hphase hqueue
    right
    have hpop := load_pop hqueue
    dsimp only
    split
    · rw [hsent]
      exact hpop
    · refine (load_phase _ true ?_).trans
        (Nat.lt_of_le_of_lt (Nat.le_add_right ..) hpop)
      show WriterPhase.left .flushed < s.writer.left
      rw [hphase]
      decide
  · rename_i hphase
    right
    show Session.load { s with writer := .exited, out := s.out.close } < s.load
    simp only [load, pending, tasks, hphase, WriterPhase.left, Chan.close,
      queued, List.map_nil, List.sum_nil]
    omega
  · exact .inl rfl

theorem load_writerStop (s : Session) :
    s.writerStop = s ∨ s.writerStop.load < s.load := by
  unfold writerStop
  split
  · rename_i hstop
    exact .inr (load_phase s s.encodeFailed (by rw [hstop.1]; decide))
  · exact .inl rfl

theorem load_readerStop (s : Session) :
    s.readerStop = s ∨ s.readerStop.load < s.load := by
  unfold readerStop
  split
  · cases hdone : s.readerDone with
    | true =>
        left
        rw [← hdone]
    | false =>
        right
        simp only [load, pending, tasks, hdone, Bool.not_true, Bool.not_false,
          Bool.toNat_true, Bool.toNat_false]
        omega
  · exact .inl rfl

theorem load_readerEof (hdone : s.readerDone = false) :
    s.readerEof.load < s.load := by
  have hshut := s.load_initiateShutdown .normal
  have hkeep : (s.initiateShutdown .normal).readerDone = false := by
    unfold initiateShutdown
    split
    · exact hdone
    · exact hdone
  unfold readerEof
  simp only [load, pending, tasks, hkeep, Bool.not_true, Bool.not_false,
    Bool.toNat_true, Bool.toNat_false] at hshut ⊢
  omega

theorem load_closerNext (s : Session) :
    s.closerNext = s ∨ s.closerNext.load < s.load := by
  unfold closerNext
  split
  · exact .inl rfl
  · rename_i id rest hqueue
    right
    simp only [load, pending, tasks, hqueue, List.length_cons]
    omega

theorem load_closerStop (s : Session) :
    s.closerStop = s ∨ s.closerStop.load < s.load := by
  unfold closerStop
  split
  · rcases hcloser : s.closer with ⟨queue, closed⟩
    by_cases hidle : queue = [] ∧ closed = true
    · left
      obtain ⟨rfl, rfl⟩ := hidle
      show { s with closer := ⟨[], true⟩ } = s
      rw [← hcloser]
    · right
      simp only [load, pending, tasks, hcloser, Chan.close, List.length_nil,
        Bool.not_true, Bool.toNat_false]
      cases closed with
      | false =>
          simp only [Bool.not_false, Bool.toNat_true]
          omega
      | true =>
          have hpos := List.length_pos_iff.mpr fun h => hidle ⟨h, rfl⟩
          omega
  · exact .inl rfl

end Session

/-! ## Whole runs -/

/-- The steps of writers, readers and closers. -/
def Act.isTask : Act → Bool
  | .writerNext => true
  | .writerStop => true
  | .readerNext => true
  | .readerStop => true
  | .readerEof => true
  | .closerNext => true
  | .closerStop => true
  | _ => false

namespace System

/-- What one side and the frames it has put on the wire can still cause. -/
def share (S : System) (r : Role) : Nat := (S.ends r).load + carried (S.wire r)

def load (S : System) : Nat := S.share .client + S.share .server

/-- The bound on the number of steps, computed from the frames that are queued
or on the wire, the ids that wait for the closers and the closing flags. -/
def replyBound (S : System) : Nat :=
  (S.ends .client).pending + carried (S.wire .client) +
    ((S.ends .server).pending + carried (S.wire .server)) + 10

theorem load_le_replyBound (S : System) : S.load ≤ S.replyBound := by
  have hclient := (S.ends .client).tasks_le
  have hserver := (S.ends .server).tasks_le
  unfold load replyBound share Session.load
  omega

theorem load_eq (S : System) (r : Role) :
    S.load = S.share r + S.share r.peer := by
  cases r with
  | client => rfl
  | server => exact Nat.add_comm _ _

theorem put_self (S : System) (r : Role) : S.put r (S.ends r) = S := by
  simp [put]

/-- One session moves on. -/
theorem load_put {S : System} {r : Role} {s : Session}
    (h : s = S.ends r ∨ s.load < (S.ends r).load) :
    S.put r s = S ∨ (S.put r s).load < S.load := by
  rcases h with rfl | h
  · exact .inl (S.put_self r)
  · right
    rw [load_eq _ r, load_eq S r]
    simp only [share, put_ends_self, put_wire,
      put_ends_ne S s (Role.peer_ne r)]
    omega

theorem load_writerTurn (S : System) (r : Role) :
    S.writerTurn r = S ∨ (S.writerTurn r).load < S.load := by
  rcases (S.ends r).load_writerNext with heq | hload
  · left
    simp [writerTurn, heq]
  · right
    have hwire : carried (S.wire r ++ (S.ends r).writerNext.1.toList) =
        carried (S.wire r) + carried (S.ends r).writerNext.1.toList := by
      simp [carried]
    rw [load_eq _ r, load_eq S r]
    simp only [share, writerTurn, Function.update_self,
      Function.update_of_ne (Role.peer_ne r), hwire]
    omega

theorem load_readerTurn (S : System) (r : Role) :
    S.readerTurn r = S ∨ (S.readerTurn r).load < S.load := by
  unfold readerTurn
  split
  · exact .inl rfl
  · split
    · exact .inl rfl
    · rename_i f rest hwire
      right
      have hload := (S.ends r).load_readerNext f
      have hcarried : carried (S.wire r.peer) = f.weight + carried rest := by
        rw [hwire]
        simp [carried]
      rw [load_eq _ r, load_eq S r]
      simp only [share, Function.update_self,
        Function.update_of_ne (Role.peer_ne r),
        Function.update_of_ne (Role.ne_peer r)]
      omega

/-- **Every step of a task that does something takes from the load.** -/
theorem load_step {S : System} {a : Action} (htask : a.act.isTask = true)
    (heffect : S.step a ≠ S) : (S.step a).load < S.load := by
  obtain ⟨r, act⟩ := a
  refine Or.resolve_left ?_ heffect
  cases act with
  | writerNext => exact S.load_writerTurn r
  | writerStop => exact load_put (S.ends r).load_writerStop
  | readerNext => exact S.load_readerTurn r
  | readerStop => exact load_put (S.ends r).load_readerStop
  | readerEof =>
      show S.eofTurn r = S ∨ (S.eofTurn r).load < S.load
      unfold eofTurn
      split
      · rename_i heof
        exact load_put (.inr (Session.load_readerEof heof.1))
      · exact .inl rfl
  | closerNext => exact load_put (S.ends r).load_closerNext
  | closerStop => exact load_put (S.ends r).load_closerStop
  | _ => cases htask

/-- **No reply storm.**  Take two endpoints in any states, with any frames in
their outbound queues and on the wire, and let only their writers, readers and
closers run.  However these are interleaved, the number of steps in which
anything happens is at most `replyBound`, and there is no infinite run of such
steps. -/
theorem no_reply_storm (S : System) :
    (∀ as : List Action, (∀ a ∈ as, a.act.isTask = true) →
      Along step (fun S a => S.step a ≠ S) S as →
      as.length ≤ S.replyBound) ∧
    ∀ (as : Nat → Action) (states : Nat → System), states 0 = S →
      (∀ k, (as k).act.isTask = true) →
      (∀ k, states (k + 1) = (states k).step (as k)) →
      ∃ k, states (k + 1) = states k := by
  constructor
  · intro as htask heffect
    refine le_trans ?_ S.load_le_replyBound
    exact length_le_of_decreasing step load
      (fun T a h => load_step h.2 h.1) as S (heffect.and_forall step htask)
  · intro as states _ htask hstep
    by_contra hnone
    have hdecreasing : ∀ k, (states (k + 1)).load < (states k).load := by
      intro k
      rw [hstep k]
      refine load_step (htask k) fun heq => hnone ⟨k, ?_⟩
      rw [hstep k, heq]
    exact not_strictAnti_of_wellFoundedLT (fun k => (states k).load)
      (strictAnti_nat_of_succ_lt hdecreasing)

/-- A `SYN` that is also a reset, and a ping, on the wire to a server. -/
def pingStart : System where
  ends := Session.new Config.default
  wire := fun
    | .client => [.data 1 ⟨9⟩ [], .mkPing 7]
    | .server => []

/-- The stream is made and removed; the ping is answered. -/
def pingRun : List Action :=
  [⟨.server, .readerNext⟩, ⟨.server, .closerNext⟩, ⟨.server, .readerNext⟩,
    ⟨.server, .writerNext⟩, ⟨.client, .readerNext⟩]

theorem no_reply_storm_pingRun :
    Along step (fun S a => S.step a ≠ S) pingStart pingRun ∧
      pingRun.length ≤ pingStart.replyBound ∧ pingStart.replyBound = 22 := by
  have hload : Along step (fun S a => (S.step a).load < S.load) pingStart
      pingRun := by
    decide +kernel
  have heffect : Along step (fun S a => S.step a ≠ S) pingStart pingRun :=
    hload.imp step fun S a h heq => (heq ▸ h).ne rfl
  exact ⟨heffect, (no_reply_storm pingStart).1 pingRun (by decide) heffect,
    by decide +kernel⟩

end System

end NetMux
