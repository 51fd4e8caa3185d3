import NetMux.Endpoint.Machine

/-!
# How much a peer can make a session buffer

A stream grants its peer the local window once, and with each `WindowUpdate`
what its handle has read.  The reader buffers whatever comes, and so a peer
that sends more than it was granted makes the buffer grow past the window.

A `Meter` is a session with the credit that each stream has granted.  A peer
that keeps to its credit sends no more than the window and that sum; since a
stream never grants more than was read from it, the bytes that wait to be read
then never exceed the window, whatever else the peer sends.
-/

namespace NetMux

open Lib Lib.Run

/-! ## The receiving side of a stream, in numbers -/

structure Intake where
  /-- Bytes that `poll_read` returned. -/
  read : Nat
  /-- Bytes that wait in the buffer. -/
  unread : Nat
  /-- Credit for bytes that were read, not yet granted to the peer. -/
  pending : Nat
  deriving DecidableEq, Repr

namespace Intake

/-- The intake of a new stream. -/
def blank : Intake := ⟨0, 0, 0⟩

/-- A payload arrives. -/
def add (l : Intake) (k : Nat) : Intake := { l with unread := l.unread + k }

/-- All bytes that arrived so far. -/
def received (l : Intake) : Nat := l.read + l.unread

/-- No more has arrived than the window and the credit granted, and no more
was granted than was read. -/
structure Balanced (window granted : Nat) (l : Intake) : Prop where
  received : l.received ≤ window + granted
  returned : granted + l.pending ≤ l.read

variable {window granted : Nat} {l : Intake}

/-- What waits to be read, and what was read and not granted, fits into the
window. -/
theorem Balanced.owed_le (h : l.Balanced window granted) :
    l.unread + l.pending ≤ window := by
  have hreceived := h.received
  have hreturned := h.returned
  unfold Intake.received at hreceived
  omega

theorem balanced_blank (window : Nat) : blank.Balanced window 0 :=
  ⟨Nat.zero_le _, Nat.le_refl _⟩

/-- A payload that the peer has the credit for keeps the balance. -/
theorem Balanced.add (h : l.Balanced window granted) {k : Nat}
    (hk : l.received + k ≤ window + granted) :
    (l.add k).Balanced window granted := by
  refine ⟨?_, h.returned⟩
  unfold Intake.received at hk ⊢
  simp only [Intake.add]
  omega

/-- **A read keeps the balance**: bytes go from the buffer to the user, and
what the peer is granted for them is at most what became of the pending
credit. -/
theorem Balanced.read (h : l.Balanced window granted) {l' : Intake}
    {returned grant : Nat} (hbytes : l'.received = l.received)
    (hcredit : l'.unread + l'.pending + returned = l.unread + l.pending)
    (hgrant : grant ≤ returned) : l'.Balanced window (granted + grant) := by
  have hreceived := h.received
  have hreturned := h.returned
  unfold Intake.received at hbytes hreceived
  constructor
  · unfold Intake.received
    omega
  · omega

end Intake

namespace Cell

def intake (c : Cell) : Intake where
  read := c.readLog.length
  unread := c.inner.recv.contents.length
  pending := c.inner.recvWindow.pendingCredit.toNat

/-- All bytes that arrived on the stream so far, read or not. -/
def received (c : Cell) : Nat := c.readLog.length + c.inner.recv.contents.length

theorem intake_new (id : StreamId) (origin : Origin) (cfg : Config)
    (owner : Owner) :
    (Cell.new (StreamInner.new id origin cfg) owner).intake = .blank := rfl

/-- Nothing but the buffer, the window and the log is in the intake. -/
theorem intake_congr {c c' : Cell} (hlog : c'.readLog = c.readLog)
    (hrecv : c'.inner.recv = c.inner.recv)
    (hwindow : c'.inner.recvWindow = c.inner.recvWindow) :
    c'.intake = c.intake := by
  unfold intake
  rw [hlog, hrecv, hwindow]

/-- A payload is added to the buffer. -/
theorem intake_push {c : Cell} {inner : StreamInner} {payload : Bytes}
    (hwindow : inner.recvWindow = c.inner.recvWindow)
    (hpush : inner.recv = c.inner.recv.push payload) :
    { c with inner := inner }.intake = c.intake.add payload.length := by
  simp only [intake, hwindow, hpush, RecvBuffer.contents_push,
    List.length_append, Intake.add]

end Cell

/-! ## What stream operations do to the receiving side -/

namespace StreamInner

theorem pollWrite_recv (s : StreamInner) (outOpen : Bool) (buf : Bytes) :
    (s.pollWrite outOpen buf).2.1.recv = s.recv ∧
      (s.pollWrite outOpen buf).2.1.recvWindow = s.recvWindow := by
  rw [pollWrite_eq]
  repeat' split
  all_goals exact ⟨rfl, rfl⟩

theorem localFin_recv (s : StreamInner) :
    s.localFin.1.recv = s.recv ∧ s.localFin.1.recvWindow = s.recvWindow := by
  unfold localFin
  split
  · exact ⟨rfl, rfl⟩
  · dsimp only
    repeat' split
    all_goals exact ⟨rfl, rfl⟩

theorem onUserDrop_recv (s : StreamInner) :
    s.onUserDrop.1.recv = s.recv ∧
      s.onUserDrop.1.recvWindow = s.recvWindow := by
  unfold onUserDrop
  split
  · exact s.localFin_recv
  · exact ⟨rfl, rfl⟩

/-- **What a frame does to the receiving side**: nothing, or its payload is
added to the buffer of a stream whose read half is open. -/
theorem deliverTo_recv (s : StreamInner) (flags : Flags) (payload : Bytes) :
    (Session.deliverTo s flags payload).2.1.recvWindow = s.recvWindow ∧
      ((Session.deliverTo s flags payload).2.1.recv = s.recv ∨
        s.canRecv = true ∧
          (Session.deliverTo s flags payload).2.1.recv =
            s.recv.push payload) := by
  have hacked : ∀ acked,
      acked = (if flags.contains Flags.ack then s.markAcked else s) →
      acked.recv = s.recv ∧ acked.recvWindow = s.recvWindow ∧
        acked.canRecv = s.canRecv := by
    rintro _ rfl
    split <;> exact ⟨rfl, rfl, rfl⟩
  unfold Session.deliverTo
  generalize hdef : (if flags.contains Flags.ack then s.markAcked else s) = acked
  obtain ⟨hrecv, hwindow, hcan⟩ := hacked acked hdef.symm
  dsimp only
  split
  · exact ⟨acked.localReset_recvWindow.trans hwindow,
      .inl (acked.localReset_recv.trans hrecv)⟩
  rename_i hopen
  have hpushed : ∀ pushed,
      pushed = (if payload.isEmpty then acked else acked.pushData payload) →
      pushed.recvWindow = s.recvWindow ∧ (pushed.recv = s.recv ∨
        s.canRecv = true ∧ pushed.recv = s.recv.push payload) := by
    rintro _ rfl
    cases hempty : payload.isEmpty with
    | true => exact ⟨hwindow, .inl hrecv⟩
    | false =>
        simp only [hempty, hcan, Bool.not_false, Bool.true_and,
          Bool.not_eq_true', Bool.not_eq_false] at hopen
        simp only [Bool.false_eq_true, if_false, pushData, hempty]
        exact ⟨hwindow, .inr ⟨hopen, by rw [hrecv]⟩⟩
  generalize hdef' : (if payload.isEmpty then acked
    else acked.pushData payload) = pushed
  -- the flags behind the payload leave the receiving side alone
  have hdone := hpushed pushed hdef'.symm
  split <;> split <;> exact hdone

end StreamInner

/-! ## What an input does to the intakes -/

namespace Session

def intakes (s : Session) : List Intake := s.streams.map Cell.intake

/-- New streams apart, the intakes are the same. -/
def SameIntake (s s' : Session) : Prop :=
  ∃ k, s'.intakes = s.intakes ++ List.replicate k .blank

variable {s s' : Session} {n : Ref} {c c' : Cell}

theorem intakes_at (hc : s.streams[n]? = some c) :
    s.intakes[n]? = some c.intake := by
  rw [intakes, List.getElem?_map, hc]
  rfl

theorem intakes_set (hs' : s'.streams = s.streams.set n c') :
    s'.intakes = s.intakes.set n c'.intake := by
  rw [intakes, hs', List.map_set]
  rfl

namespace SameIntake

theorem of_intakes (h : s'.intakes = s.intakes) : SameIntake s s' :=
  ⟨0, h.trans (List.append_nil _).symm⟩

theorem of_streams (h : s'.streams = s.streams) : SameIntake s s' :=
  of_intakes (by rw [intakes, intakes, h])

theorem refl (s : Session) : SameIntake s s := of_streams rfl

/-- A stream moves on and its receiving side does not. -/
theorem set (hc : s.streams[n]? = some c)
    (hs' : s'.streams = s.streams.set n c') (hsame : c'.intake = c.intake) :
    SameIntake s s' := by
  refine of_intakes ?_
  rw [intakes_set hs', hsame]
  exact Keyed.set_same (intakes_at hc)

/-- A stream is made. -/
theorem append (hblank : c.intake = .blank)
    (hs' : s'.streams = s.streams ++ [c]) : SameIntake s s' := by
  refine ⟨1, ?_⟩
  rw [intakes, hs', List.map_append, List.map_singleton, hblank]
  rfl

end SameIntake

theorem intakes_initiateShutdown (s : Session) (code : ErrorCode) :
    (s.initiateShutdown code).intakes = s.intakes := by
  cases hcl : s.isClosing with
  | true => rw [initiateShutdown_again hcl]
  | false =>
      rw [initiateShutdown_eq hcl]
      exact Keyed.map_key_modifyAll force_idem (fun _ => rfl) _

theorem intakes_readerFail (s : Session) (e : Error) :
    (s.readerFail e).intakes = s.intakes :=
  s.intakes_initiateShutdown (errorCodeOf e)

theorem intakes_settle (p : Except Error Unit × Session) :
    (settle p).intakes = p.2.intakes := by
  obtain ⟨result, s'⟩ := p
  cases result with
  | ok u => rfl
  | error e => exact s'.intakes_readerFail e

/-- An operation of a stream that leaves its receiving side alone. -/
theorem SameIntake.update (hc : s.streams[n]? = some c) (emit : Emit)
    (hlog : c'.readLog = c.readLog)
    (hrecv : c'.inner.recv = c.inner.recv ∧
      c'.inner.recvWindow = c.inner.recvWindow) :
    SameIntake s (s.update n c' emit) :=
  .set hc rfl (Cell.intake_congr hlog hrecv.1 hrecv.2)

theorem sameIntake_openStart (s : Session) : SameIntake s s.openStart.2 := by
  unfold openStart
  split
  · exact .refl s
  · split
    · exact .refl s
    · split
      · exact .refl s
      · dsimp only
        split
        · exact .append (Cell.intake_new ..) rfl
        · split
          · exact .append (Cell.intake_new ..) rfl
          · exact .append (Cell.intake_new ..) rfl

theorem sameIntake_acceptPoll (s : Session) : SameIntake s s.acceptPoll.2 := by
  unfold acceptPoll
  split
  · exact .refl s
  · split
    · exact .refl s
    · dsimp only
      split
      · exact .of_streams rfl
      · rename_i c hc
        split
        · exact .set hc rfl rfl
        · exact .set hc rfl rfl

theorem sameIntake_writerNext (s : Session) :
    SameIntake s s.writerNext.2 := by
  obtain heq | ⟨f, rest, -, -, heq⟩ | ⟨f, rest, -, -, heq⟩ | ⟨-, -, heq⟩ |
    ⟨-, f, rest, -, heq⟩ | ⟨-, heq⟩ := s.writerNext_cases
  case inr.inr.inl =>
    rw [heq]
    exact .of_intakes (intakes_initiateShutdown (System.popOut s rest) _)
  all_goals
    rw [heq]
    exact .of_streams rfl

theorem sameIntake_openPoll (s : Session) (n : Ref) :
    SameIntake s (s.openPoll n).2 := by
  unfold openPoll
  split
  · exact .refl s
  · rename_i c hc
    have hpending := (pendingOpen_some hc).1
    split
    · exact .refl s
    · exact .set hpending rfl rfl
    · exact .set hpending rfl rfl

/-- **What a side does by itself**, a read of a handle apart, leaves the
receiving side of every stream alone. -/
theorem sameIntake_perform (s : Session) {a : Act}
    (hread : ∀ n remaining, a ≠ .pollRead n remaining) :
    SameIntake s (s.perform a) := by
  cases a with
  | openStart => exact s.sameIntake_openStart
  | openPoll n => exact s.sameIntake_openPoll n
  | openTimeout n =>
      show SameIntake s (s.openTimeout n).2
      unfold openTimeout
      split
      · exact .refl s
      · rename_i c hc
        split
        · exact s.sameIntake_openPoll n
        · exact .set (pendingOpen_some hc).1 rfl rfl
  | openCancel n =>
      show SameIntake s (s.openCancel n)
      unfold openCancel
      split
      · exact .refl s
      · rename_i c hc
        exact .set (pendingOpen_some hc).1 rfl rfl
  | accept => exact s.sameIntake_acceptPoll
  | pollRead n remaining => exact absurd rfl (hread n remaining)
  | pollWrite n buf =>
      show SameIntake s (s.pollWrite n buf)
      unfold pollWrite
      split
      · exact .refl s
      · rename_i c hc
        exact .update (handleAt_some hc).1 _ rfl (c.inner.pollWrite_recv _ buf)
  | shutdown n =>
      show SameIntake s (s.pollShutdown n)
      unfold pollShutdown
      split
      · exact .refl s
      · rename_i c hc
        exact .update (handleAt_some hc).1 _ rfl c.inner.localFin_recv
  | reset n =>
      show SameIntake s (s.reset n)
      unfold reset
      split
      · exact .refl s
      · rename_i c hc
        exact .update (handleAt_some hc).1 _ rfl
          ⟨c.inner.localReset_recv, c.inner.localReset_recvWindow⟩
  | drop n =>
      show SameIntake s (s.dropHandle n)
      unfold dropHandle
      split
      · exact .refl s
      · rename_i c hc
        exact .update (handleAt_some hc).1 _ rfl c.inner.onUserDrop_recv
  | close => exact .of_intakes (s.intakes_initiateShutdown .normal)
  | writerNext => exact s.sameIntake_writerNext
  | keepaliveTimeout =>
      show SameIntake s s.keepaliveTimeout
      unfold keepaliveTimeout
      split
      · exact .of_intakes (s.intakes_initiateShutdown .timeout)
      · exact .refl s
  | readerNext | readerEof => exact .refl s
  | writerStop | readerStop | closerNext | closerStop | keepaliveTick
  | keepalivePong | keepaliveStop =>
      simp only [perform, writerStop, readerStop, closerNext, closerStop,
        keepaliveTick, keepalivePong, keepaliveStop]
      repeat' split
      all_goals exact .of_streams rfl

/-- A payload is added to a stream that is registered. -/
def Adds (s s' : Session) (n : Ref) (payload : Bytes) : Prop :=
  ∃ c, s.streams[n]? = some c ∧ c.inner.canRecv = true ∧
    s'.intakes = s.intakes.set n (c.intake.add payload.length)

theorem intake_handleStream (s : Session) (id : StreamId) (flags : Flags)
    (payload : Bytes) :
    SameIntake s (s.handleStream id flags payload).2 ∨
      ∃ n, s.registry.get id = some n ∧
        Adds s (s.handleStream id flags payload).2 n payload := by
  unfold handleStream
  split
  · left
    split <;> exact .of_streams rfl
  · rename_i n c hf
    obtain ⟨hget, hc⟩ := find_some hf
    obtain ⟨hwindow, hsame | ⟨hopen, hpush⟩⟩ :=
      c.inner.deliverTo_recv flags payload
    · exact .inl (.update hc _ rfl ⟨hsame, hwindow⟩)
    · refine .inr ⟨n, hget, c, hc, hopen, ?_⟩
      exact (intakes_set rfl).trans
        (congrArg _ (Cell.intake_push hwindow hpush))

/-- What a `Data` frame can do to the receiving sides: its payload is added to
the registered stream, or to one that its `SYN` makes. -/
def Feeds (s s' : Session) (id : StreamId) (flags : Flags) (payload : Bytes) :
    Prop :=
  (flags.contains Flags.syn = false ∧ id ≠ 0 ∧
    ∃ n, s.registry.get id = some n ∧ Adds s s' n payload) ∨
  (flags.contains Flags.syn = true ∧ s.admitsSyn id = true ∧
    s'.intakes = s.intakes ++ [Intake.blank.add payload.length])

theorem intake_handleData (s : Session) (id : StreamId) (flags : Flags)
    (payload : Bytes) :
    SameIntake s (s.handleData id flags payload).2 ∨
      Feeds s (s.handleData id flags payload).2 id flags payload := by
  unfold handleData
  split
  · exact .inl (.refl s)
  rename_i hid
  by_cases hsyn : flags.contains Flags.syn = true
  · rw [if_pos hsyn]
    rcases s.handleSyn_cases id with ⟨e, heq⟩ | heq |
        ⟨g, hown, hlen, hins, ⟨-, heq⟩ | ⟨-, heq⟩⟩
    · rw [heq]
      exact .inl (.refl s)
    · rw [heq]
      exact .inl (.of_streams rfl)
    · rw [heq]
      exact .inl (.append (Cell.intake_new ..) rfl)
    · have hadmits := (s.admitsSyn_iff id).mpr ⟨hid, _, heq⟩
      rw [heq]
      have hmade : (s.accepting id g).intakes = s.intakes ++ [.blank] := by
        rw [intakes, accepting, List.map_append]
        rfl
      rcases (s.accepting id g).intake_handleStream id flags payload with
        ⟨k, hk⟩ | ⟨n, hget, c, hc, -, hadds⟩
      · refine .inl ⟨1 + k, ?_⟩
        rw [hk, hmade, List.append_assoc, List.replicate_add]
        rfl
      · -- the payload is for the stream that was just made
        have hn : s.streams.length = n := by
          have hget' : g.get id = some n := hget
          rw [(StreamRegistry.insert_ok hins).2, if_pos rfl] at hget'
          exact Option.some.inj hget'
        subst hn
        have hblank : c.intake = .blank := by
          have hat := intakes_at hc
          rw [hmade, show s.streams.length = s.intakes.length from
            (List.length_map _).symm, List.getElem?_concat_length] at hat
          exact (Option.some.inj hat).symm
        refine .inr (.inr ⟨hsyn, hadmits, ?_⟩)
        rw [hadds, hmade, hblank, show s.streams.length = s.intakes.length from
          (List.length_map _).symm, List.set_append_right _ _ (Nat.le_refl _),
          Nat.sub_self]
        rfl
  · rw [if_neg hsyn]
    refine (s.intake_handleStream id flags payload).imp_right ?_
    exact fun hadds => .inl ⟨Bool.not_eq_true _ ▸ hsyn, hid, hadds⟩

theorem sameIntake_dispatch (s : Session) {f : Frame}
    (hdata : ∀ id flags payload, f ≠ .data id flags payload) :
    SameIntake s (s.dispatch f).2 := by
  cases f with
  | data id flags payload => exact absurd rfl (hdata id flags payload)
  | windowUpdate id flags delta =>
      show SameIntake s (s.handleWindowUpdate id delta)
      unfold handleWindowUpdate
      split
      · exact .refl s
      · rename_i n c hf
        exact .update (find_some hf).2 _ rfl ⟨rfl, rfl⟩
  | ping flags nonce =>
      show SameIntake s (s.handlePing flags nonce)
      unfold handlePing
      split <;> exact .of_streams rfl
  | goAway code =>
      exact .of_intakes (s.notePeerGone.intakes_initiateShutdown code)

/-- **What the peer can do**: nothing to the receiving sides, or a `Data` frame
feeds one. -/
theorem intake_peer (s : Session) {x : Input} (hact : ∀ a, x ≠ .act a) :
    SameIntake s (s.take x) ∨ ∃ id flags payload,
      x = .frame (.data id flags payload) ∧ s.readerDone = false ∧
        Feeds s (s.take x) id flags payload := by
  cases hdone : s.readerDone with
  | true =>
      left
      cases x with
      | act a => exact absurd rfl (hact a)
      | frame f | garbage e | eof =>
          simp only [take, hdone, if_true]
          exact .refl s
  | false =>
      cases x with
      | act a => exact absurd rfl (hact a)
      | garbage e =>
          left
          simp only [take, hdone, Bool.false_eq_true, if_false]
          exact .of_intakes (s.intakes_readerFail e)
      | eof =>
          left
          simp only [take, hdone, Bool.false_eq_true, if_false]
          exact .of_intakes (s.intakes_initiateShutdown .normal)
      | frame f =>
          have htake : (s.take (.frame f)).intakes = (s.dispatch f).2.intakes := by
            simp only [take, hdone, Bool.false_eq_true, if_false]
            exact intakes_settle _
          by_cases hdata : ∃ id flags payload, f = .data id flags payload
          · obtain ⟨id, flags, payload, rfl⟩ := hdata
            unfold SameIntake Feeds Adds
            rw [htake]
            exact (s.intake_handleData id flags payload).imp_right
              fun hfeeds => ⟨id, flags, payload, rfl, rfl, hfeeds⟩
          · left
            unfold SameIntake
            rw [htake]
            exact s.sameIntake_dispatch fun id flags payload hf =>
              hdata ⟨id, flags, payload, hf⟩

end Session

/-! ## The meter -/

/-- A session and, for each of its streams, the credit that its peer was given
on top of the window: what the `WindowUpdate`s add up to that the reads of its
handle have put into the outbound queue.  No code reads the sums. -/
structure Meter where
  session : Session
  granted : Ref → Nat

namespace Meter

def new (cfg : Config) (role : Role) : Meter :=
  ⟨Session.new cfg role, fun _ => 0⟩

/-- The credit that an input grants the peer of a stream.  Only a read of its
handle can grant any. -/
def grant (s : Session) (n : Ref) : Input → Nat
  | .act (.pollRead h remaining) =>
      match s.handleAt h with
      | none => 0
      | some c =>
          if h = n then
            Msg.grants (msgs c.id ((s.pollRead h remaining).out.queue.drop
              s.out.queue.length))
          else 0
  | _ => 0

def step (m : Meter) (x : Input) : Meter :=
  ⟨m.session.take x, fun n => m.granted n + grant m.session n x⟩

/-- The input is a `Data` frame with more bytes than its stream has granted:
for a new stream the window, for a registered one whose read half is open the
window and the credit granted since, less what has arrived. -/
def overdraws (m : Meter) : Input → Bool
  | .frame (.data id flags payload) =>
      !m.session.readerDone &&
        if flags.contains Flags.syn then
          m.session.admitsSyn id &&
            decide (m.session.config.initialStreamWindow.toNat < payload.length)
        else
          match m.session.find id with
          | none => false
          | some (n, c) =>
              id != 0 && c.inner.canRecv &&
                decide (m.session.config.initialStreamWindow.toNat +
                  m.granted n < c.received + payload.length)
  | _ => false

/-- The session does not depend on the meter. -/
theorem session_run (m : Meter) (xs : List Input) :
    (run step m xs).session = run Session.take m.session xs := by
  induction xs generalizing m with
  | nil => rfl
  | cons x xs ih => exact ih (m.step x)

variable {cfg : Config} {m : Meter} {x : Input}

/-- Every stream is balanced, and nothing was granted for streams to come. -/
structure Metered (cfg : Config) (m : Meter) : Prop where
  config : m.session.config = cfg
  balanced : ∀ (n : Ref) (l : Intake), m.session.intakes[n]? = some l →
    l.Balanced cfg.initialStreamWindow.toNat (m.granted n)
  fresh : ∀ n : Ref, m.session.intakes.length ≤ n → m.granted n = 0

theorem metered_new (cfg : Config) (role : Role) :
    (new cfg role).Metered cfg where
  config := rfl
  balanced := fun _ _ hl => nomatch hl
  fresh := fun _ _ => rfl

/-- An input that grants nothing and leaves the receiving sides alone. -/
theorem Metered.same (h : m.Metered cfg)
    (hsame : Session.SameIntake m.session (m.session.take x))
    (hgrant : ∀ n, grant m.session n x = 0) : (m.step x).Metered cfg := by
  obtain ⟨k, hk⟩ := hsame
  have hgranted : ∀ n, (m.step x).granted n = m.granted n := fun n => by
    show m.granted n + _ = _
    rw [hgrant, Nat.add_zero]
  refine ⟨(m.session.take_config x).trans h.config, fun n l hl => ?_,
    fun n hn => ?_⟩
  · have hl' : (m.session.take x).intakes[n]? = some l := hl
    rw [hk] at hl'
    rw [hgranted]
    rcases Nat.lt_or_ge n m.session.intakes.length with hlt | hge
    · rw [List.getElem?_append_left hlt] at hl'
      exact h.balanced n l hl'
    · rw [List.getElem?_append_right hge] at hl'
      rw [List.eq_of_mem_replicate (List.mem_of_getElem? hl'), h.fresh n hge]
      exact Intake.balanced_blank _
  · have hn' : (m.session.take x).intakes.length ≤ n := hn
    rw [hk, List.length_append] at hn'
    rw [hgranted]
    exact h.fresh n (by omega)

/-- One stream moves on, and keeps its balance. -/
theorem Metered.put (h : m.Metered cfg) {n : Ref} {l l' : Intake}
    (hl : m.session.intakes[n]? = some l)
    (htake : (m.session.take x).intakes = m.session.intakes.set n l')
    (hl' : l'.Balanced cfg.initialStreamWindow.toNat
      (m.granted n + grant m.session n x))
    (hother : ∀ j, j ≠ n → grant m.session j x = 0) :
    (m.step x).Metered cfg := by
  have hgranted : ∀ j, j ≠ n → (m.step x).granted j = m.granted j := by
    intro j hj
    show m.granted j + _ = _
    rw [hother j hj, Nat.add_zero]
  refine ⟨(m.session.take_config x).trans h.config, fun j d hd => ?_,
    fun j hj => ?_⟩
  · have hd' : (m.session.take x).intakes[j]? = some d := hd
    rw [htake, Keyed.getElem?_set_at hl] at hd'
    split at hd'
    · rename_i hjn
      subst hjn
      cases hd'
      exact hl'
    · rename_i hjn
      rw [hgranted j hjn]
      exact h.balanced j d hd'
  · have hj' : (m.session.take x).intakes.length ≤ j := hj
    rw [htake, List.length_set] at hj'
    have hlt := (List.getElem?_eq_some_iff.mp hl).1
    rw [hgranted j (Nat.ne_of_gt (hlt.trans_le hj'))]
    exact h.fresh j hj'

/-- **Reads keep the credit granted in step with the bytes read.** -/
theorem Metered.read (h : m.Metered cfg) (n : Ref) (remaining : Nat) :
    (m.step (.act (.pollRead n remaining))).Metered cfg := by
  cases hc : m.session.handleAt n with
  | none =>
      refine h.same (.of_streams ?_) fun j => ?_
      · show (m.session.pollRead n remaining).streams = _
        rw [Session.pollRead, hc]
      · rw [grant, hc]
  | some c =>
      obtain ⟨hat, -⟩ := Session.handleAt_some hc
      have hbalanced := h.balanced n c.intake (Session.intakes_at hat)
      have htake : m.session.take (.act (.pollRead n remaining)) =
          m.session.update n (c.read remaining)
            (c.inner.pollRead remaining).2.2 := by
        show m.session.pollRead n remaining = _
        rw [Session.pollRead, hc]
        rfl
      -- what got into the outbound queue is at most what the read returned
      have hgrant : grant m.session n (.act (.pollRead n remaining)) ≤
          Msg.grants (c.readMsgs remaining) := by
        have hqueue : (m.session.pollRead n remaining).out.queue =
            (m.session.out.sendAll
              (c.inner.pollRead remaining).2.2.frames).queue :=
          congrArg (fun s => s.out.queue) htake
        rw [grant, hc]
        dsimp only
        rw [if_pos rfl, hqueue, Chan.sendAll_queue, List.drop_left]
        split
        · exact Nat.zero_le _
        · exact Nat.le_refl _
      have howed := hbalanced.owed_le
      have hwindow := cfg.initialStreamWindow.toNat_lt
      have hbytes := congrArg List.length (c.read_bytes remaining)
      rw [List.length_append, List.length_append] at hbytes
      refine h.put (Session.intakes_at hat)
        ((congrArg Session.intakes htake).trans (Session.intakes_set rfl))
        (hbalanced.read hbytes ?_ hgrant) fun j hj => ?_
      · exact c.read_conserves remaining (Nat.lt_of_le_of_lt howed hwindow)
      · rw [grant, hc]
        exact if_neg fun hnj => hj hnj.symm

/-- A `Data` frame that the peer has the credit for. -/
theorem Metered.feed (h : m.Metered cfg) {id : StreamId} {flags : Flags}
    {payload : Bytes} (hdone : m.session.readerDone = false)
    (hfeeds : Session.Feeds m.session
      (m.session.take (.frame (.data id flags payload))) id flags payload)
    (hover : m.overdraws (.frame (.data id flags payload)) = false) :
    (m.step (.frame (.data id flags payload))).Metered cfg := by
  rw [overdraws, hdone, Bool.not_false, Bool.true_and, h.config] at hover
  rcases hfeeds with ⟨hsyn, hid, n, hget, c, hc, hopen, htake⟩ |
      ⟨hsyn, hadmits, htake⟩
  · have hfind : m.session.find id = some (n, c) := by
      simp only [Session.find, hget, hc]
    have hfits : c.intake.received + payload.length ≤
        cfg.initialStreamWindow.toNat + m.granted n := by
      simp only [hsyn, hfind, hopen, Bool.false_eq_true, if_false,
        bne_iff_ne.mpr hid, Bool.and_self, Bool.true_and,
        decide_eq_false_iff_not, Nat.not_lt] at hover
      exact hover
    have hat := Session.intakes_at hc
    exact h.put hat htake ((h.balanced n _ hat).add hfits) fun _ _ => rfl
  · have hfits : payload.length ≤ cfg.initialStreamWindow.toNat := by
      simp only [hsyn, hadmits, if_true, Bool.true_and,
        decide_eq_false_iff_not, Nat.not_lt] at hover
      exact hover
    refine ⟨(m.session.take_config _).trans h.config, fun n l hl => ?_,
      fun n hn => ?_⟩
    · have hl' : (m.session.take (.frame (.data id flags
          payload))).intakes[n]? = some l := hl
      rw [htake] at hl'
      rcases Keyed.getElem?_append_cases hl' with hl' | ⟨rfl, rfl⟩
      · exact h.balanced n l hl'
      · have hnone : (m.step (.frame (.data id flags payload))).granted
            m.session.intakes.length = 0 := h.fresh _ (Nat.le_refl _)
        rw [hnone]
        refine (Intake.balanced_blank _).add ?_
        rw [Nat.add_zero]
        exact (Nat.zero_add _).trans_le hfits
    · have hn' : (m.session.take (.frame (.data id flags
          payload))).intakes.length ≤ n := hn
      rw [htake, List.length_append] at hn'
      exact h.fresh n (by omega)

/-- **An input that overdraws no credit keeps every stream balanced.** -/
theorem Metered.step (h : m.Metered cfg) (hover : m.overdraws x = false) :
    (m.step x).Metered cfg := by
  by_cases hact : ∃ a, x = .act a
  · obtain ⟨a, rfl⟩ := hact
    by_cases hread : ∃ n remaining, a = .pollRead n remaining
    · obtain ⟨n, remaining, rfl⟩ := hread
      exact h.read n remaining
    · refine h.same (m.session.sameIntake_perform fun n remaining ha =>
        hread ⟨n, remaining, ha⟩) fun n => ?_
      cases a with
      | pollRead k remaining => exact absurd ⟨k, remaining, rfl⟩ hread
      | _ => rfl
  · rcases m.session.intake_peer (fun a ha => hact ⟨a, ha⟩) with
      hsame | ⟨id, flags, payload, rfl, hdone, hfeeds⟩
    · refine h.same hsame fun n => ?_
      cases x with
      | act a => exact absurd ⟨a, rfl⟩ hact
      | _ => rfl
    · exact h.feed hdone hfeeds hover

/-- **Receive memory is bounded against every peer that keeps to its
credit.**  In every run of a session, whatever its users and tasks do and
whatever frames, broken bytes or end of the connection the peer sends, as long
as no `Data` frame has more bytes than its stream has granted and not yet
received: no stream ever holds more unread bytes than the local window, and
none has ever taken in more than the window and the `WindowUpdate`s enqueued
for it. -/
theorem unread_le_window (cfg : Config) (role : Role) (xs : List Input)
    (hrun : Along step (fun m x => m.overdraws x = false) (new cfg role) xs) :
    ∀ (n : Ref) (c : Cell),
      (run Session.take (Session.new cfg role) xs).streams[n]? = some c →
      c.inner.recv.contents.length ≤ cfg.initialStreamWindow.toNat ∧
      c.received ≤ cfg.initialStreamWindow.toNat +
        (run step (new cfg role) xs).granted n := by
  have hmetered : (run step (new cfg role) xs).Metered cfg :=
    run_invariant step (fun m x h hx => h.step hx) xs _ (metered_new cfg role)
      hrun
  intro n c hc
  have hat : (run step (new cfg role) xs).session.streams[n]? = some c := by
    rw [session_run]
    exact hc
  have hbalanced := hmetered.balanced n c.intake (Session.intakes_at hat)
  exact ⟨(Nat.le_add_right _ _).trans hbalanced.owed_le, hbalanced.received⟩

end Meter

/-- A `SYN` that carries two bytes. -/
def Session.bigSyn : Input := .frame (.data 1 Flags.syn [1, 2])

/-- With a window of one byte both bytes are buffered all the same. -/
theorem Session.bigSyn_overruns :
    ∃ c ∈ ((new { Config.default with initialStreamWindow := 1 }
        .server).take bigSyn).streams,
      ((new { Config.default with initialStreamWindow := 1 }
        .server).take bigSyn).registry.get c.id = some 0 ∧
      c.inner.recv.contents = [1, 2] := by
  decide +kernel

/-- A stream is opened and filled to its window of two bytes, one byte is
read and one more arrives, then a long frame for no stream. -/
def Meter.politeInputs : List Input :=
  [.frame (.syn 1), .frame (.data 1 Flags.empty [1, 2]), .act .accept,
    .act (.pollRead 0 1), .frame (.data 1 Flags.empty [3]),
    .frame (.data 9 Flags.empty [4, 5, 6])]

theorem Meter.unread_le_window_polite :
    ∃ c, (run Session.take (Session.new
        { Config.default with initialStreamWindow := 2 } .server)
        politeInputs).streams[0]? = some c ∧
      c.inner.recv.contents = [2, 3] ∧ c.inner.recv.contents.length ≤ 2 ∧
      c.received = 3 ∧ c.received ≤ 2 + (run step
        (new { Config.default with initialStreamWindow := 2 } .server)
        politeInputs).granted 0 := by
  have hstate : ∃ c, (run Session.take (Session.new
      { Config.default with initialStreamWindow := 2 } .server)
      politeInputs).streams[0]? = some c ∧
      c.inner.recv.contents = [2, 3] ∧ c.received = 3 := by
    refine ⟨_, rfl, ?_⟩
    decide +kernel
  obtain ⟨c, hc, hbytes, hreceived⟩ := hstate
  obtain ⟨hunread, hgranted⟩ := unread_le_window _ _ politeInputs
    (by decide +kernel) 0 c hc
  exact ⟨c, hc, hbytes, hunread, hreceived, hgranted⟩

end NetMux
