import NetMux.Endpoint.Directory
import NetMux.Protocol.Grammar

/-!
# The reader on the bytes of the connection

`Input` hands the reader whole frames.  Here it is the loop of `reader::run`
over a `FramedRead`: the connection delivers bytes in pieces of any size, one
turn of the loop decodes at most one frame off the buffer and dispatches it,
and between the turns the users and the other tasks of the session act.  What
the reader reports when the bytes are no frame is read off this machine.

The end of the connection is not among the arrivals: bytes that are refused
are refused before the next read.
-/

namespace NetMux

open Lib Lib.Run

/-- What can happen to a session whose connection is a byte stream. -/
inductive Arrival where
  /-- The connection delivers some more bytes. -/
  | arrive (chunk : Bytes)
  /-- The reader loop takes a turn. -/
  | next
  /-- A user or another task acts. -/
  | act (a : Act)
  deriving DecidableEq, Repr

/-- A session with the read buffer of its `FramedRead`; what has arrived and
what was dispatched so far is recorded, and no code reads it. -/
structure Inbound where
  session : Session
  buffer : Bytes
  received : Bytes
  frames : List Frame

namespace Inbound

def new (cfg : Config) (role : Role) : Inbound :=
  ⟨Session.new cfg role, [], [], []⟩

/-- One turn of the reader loop. -/
def next (x : Inbound) : Inbound :=
  if x.session.readerDone then x
  else
    match x.session.codec.decode x.buffer with
    | (.error e, rest) =>
        { x with session := x.session.readerFail e, buffer := rest }
    | (.ok none, _) => x
    | (.ok (some frame), rest) =>
        { x with
          session := Session.settle (x.session.dispatch frame)
          buffer := rest
          frames := x.frames ++ [frame] }

def step (x : Inbound) : Arrival → Inbound
  | .arrive chunk =>
      { x with
        buffer := x.buffer ++ chunk
        received := x.received ++ chunk }
  | .next => x.next
  | .act a => { x with session := x.session.perform a }

/-- The reader and its session after some arrivals. -/
def after (cfg : Config) (role : Role) (xs : List Arrival) : Inbound :=
  run step (new cfg role) xs

section Turn

variable {x : Inbound} (hrun : x.session.readerDone = false)

include hrun

theorem next_error {e : Error} {rest : Bytes}
    (hd : x.session.codec.decode x.buffer = (.error e, rest)) :
    x.next = { x with session := x.session.readerFail e, buffer := rest } := by
  rw [next, hrun, hd]
  rfl

theorem next_none {rest : Bytes}
    (hd : x.session.codec.decode x.buffer = (.ok none, rest)) :
    x.next = x := by
  rw [next, hrun, hd]
  rfl

theorem next_some {frame : Frame} {rest : Bytes}
    (hd : x.session.codec.decode x.buffer = (.ok (some frame), rest)) :
    x.next =
      { x with
        session := Session.settle (x.session.dispatch frame)
        buffer := rest
        frames := x.frames ++ [frame] } := by
  rw [next, hrun, hd]
  rfl

/-- **On an encoded frame the loop is the turn on that frame.** -/
theorem next_encoding {f : Frame} (hf : f.FlagsDefined)
    (hlen : f.payloadLen < 2 ^ 32) {more : Bytes}
    (hbuf : x.buffer = FrameCodec.encoding f ++ more) :
    x.next.session = x.session.readerNext f := by
  have hd := FrameCodec.decode_encoding x.session.codec f more hf hlen
  rw [← hbuf] at hd
  rw [Session.readerNext_eq _ hf hlen]
  split
  · rename_i hbig
    rw [if_pos hbig] at hd
    rw [next_error hrun hd]
  · rename_i hfits
    rw [if_neg hfits] at hd
    rw [next_some hrun hd]

end Turn

/-! ## The session takes its inputs -/

/-- An arrival is at most one input of the session. -/
theorem step_session (x : Inbound) (d : Arrival) :
    (x.step d).session = x.session ∨
      ∃ i, (x.step d).session = x.session.take i := by
  cases d with
  | arrive chunk => exact .inl rfl
  | act a => exact .inr ⟨.act a, rfl⟩
  | next =>
      show x.next.session = _ ∨ ∃ i, x.next.session = _
      cases hrun : x.session.readerDone with
      | true => exact .inl (by rw [next, if_pos hrun])
      | false =>
          rcases hd : x.session.codec.decode x.buffer with ⟨e | _ | f, rest⟩
          · refine .inr ⟨.garbage e, ?_⟩
            rw [next_error hrun hd, Session.take, hrun]
            rfl
          · exact .inl (by rw [next_none hrun hd])
          · refine .inr ⟨.frame f, ?_⟩
            rw [next_some hrun hd, Session.take, hrun]
            rfl

/-- The frames dispatched are those the decoder finds at the front of what
arrived, and the buffer is the rest; whatever arrives next. -/
def Splits (c : FrameCodec) (x : Inbound) : Prop :=
  ∀ more, c.decodeAll (x.received ++ more) =
    (x.frames ++ (c.decodeAll (x.buffer ++ more)).1,
      (c.decodeAll (x.buffer ++ more)).2)

/-- A turn of the loop moves the split by one frame or not at all. -/
theorem Splits.next {x : Inbound} (h : Splits x.session.codec x) :
    Splits x.session.codec x.next := by
  intro more
  have hmore := h more
  cases hrun : x.session.readerDone with
  | true =>
      have hsame : x.next = x := by rw [Inbound.next, if_pos hrun]
      rwa [hsame]
  | false =>
      rcases hd : x.session.codec.decode x.buffer with ⟨e | _ | f, rest⟩
      · rwa [next_error hrun hd, FrameCodec.decode_error_rest hd]
      · rwa [next_none hrun hd]
      · rw [FrameCodec.decodeAll_some
          (FrameCodec.decode_some_append hd more)] at hmore
        rw [next_some hrun hd, hmore, List.append_assoc]
        rfl

/-- What a run keeps of the bytes and the session. -/
structure Reads (cfg : Config) (x : Inbound) : Prop where
  up : x.session.Up
  config : x.session.config = cfg
  splits : Splits (FrameCodec.new cfg.maxFrameSize) x

theorem Reads.codec {cfg : Config} {x : Inbound} (h : Reads cfg x) :
    x.session.codec = FrameCodec.new cfg.maxFrameSize := by
  rw [Session.codec, h.config]

/-- An arrival keeps the account. -/
theorem Reads.step {cfg : Config} {x : Inbound} (h : Reads cfg x)
    (d : Arrival) : Reads cfg (x.step d) := by
  have hsession : (x.step d).session.Up ∧ (x.step d).session.config = cfg := by
    obtain hsame | ⟨i, hi⟩ := x.step_session d
    · exact ⟨hsame ▸ h.up, by rw [hsame, h.config]⟩
    · have hev := h.up.take i
      rw [hi]
      exact ⟨hev.up, hev.config.trans h.config⟩
  refine ⟨hsession.1, hsession.2, ?_⟩
  cases d with
  | arrive chunk =>
      intro more
      show FrameCodec.decodeAll _ (x.received ++ chunk ++ more) =
        (_ ++ (FrameCodec.decodeAll _ (x.buffer ++ chunk ++ more)).1,
          (FrameCodec.decodeAll _ (x.buffer ++ chunk ++ more)).2)
      rw [List.append_assoc, List.append_assoc]
      exact h.splits (chunk ++ more)
  | act a => exact h.splits
  | next =>
      have hsplits := h.splits
      rw [← h.codec] at hsplits ⊢
      exact hsplits.next

theorem reads_after (cfg : Config) (role : Role) (xs : List Arrival) :
    Reads cfg (after cfg role xs) :=
  run_invariant_all step (fun _ d h => h.step d) xs _
    ⟨Session.up_new cfg role, rfl, fun _ => rfl⟩

/-- When everything before a refused frame was dispatched, the buffer starts
with that frame. -/
theorem Reads.refused {cfg : Config} {x : Inbound} (h : Reads cfg x)
    {e : Error} {rest : Bytes}
    (hbad : (FrameCodec.new cfg.maxFrameSize).decodeAll x.received =
      (x.frames, .error e, rest)) :
    (FrameCodec.new cfg.maxFrameSize).decode rest = (.error e, rest) ∧
      x.buffer = rest := by
  have hall := h.splits []
  rw [List.append_nil, List.append_nil, hbad, Prod.mk.injEq,
    List.self_eq_append_right] at hall
  rcases hd : (FrameCodec.new cfg.maxFrameSize).decode x.buffer with
    ⟨e' | f?, r⟩
  · have hr := FrameCodec.decode_error_rest hd
    rw [FrameCodec.decodeAll_error hd] at hall
    obtain ⟨-, hsame⟩ := hall
    cases hsame
    exact ⟨hr ▸ hd, hr.symm⟩
  · cases f? with
    | none =>
        rw [FrameCodec.decodeAll_none hd] at hall
        cases hall.2
    | some f =>
        rw [FrameCodec.decodeAll_some hd] at hall
        cases hall.1

/-! ## What the reader reports -/

/-- **A frame that is refused is reported as a protocol error.** -/
theorem Reads.report {cfg : Config} {x : Inbound} (h : Reads cfg x)
    (hopen : x.session.isClosing = false)
    (hrun : x.session.readerDone = false) {e : Error} {rest : Bytes}
    (hbad : (FrameCodec.new cfg.maxFrameSize).decodeAll x.received =
      (x.frames, .error e, rest)) :
    x.next.session.readerDone = true ∧
      x.next.session.out.queue =
        x.session.out.queue ++ [.goAway .protocolError] := by
  obtain ⟨hd, hbuf⟩ := h.refused hbad
  obtain ⟨message, rfl⟩ := FrameCodec.decode_error_protocol hd
  have hout : x.session.out.closed = false := by
    cases hcl : x.session.out.closed with
    | false => rfl
    | true => exact (h.up.out hcl).symm.trans hopen
  rw [← h.codec, ← hbuf] at hd
  rw [next_error hrun hd]
  refine ⟨rfl, ?_⟩
  show (x.session.initiateShutdown .protocolError).out.queue = _
  rw [Session.initiateShutdown_eq hopen]
  show (x.session.out.send _).queue = _
  rw [Chan.send_eq_sendAll, Chan.sendAll_queue, hout]
  rfl

/-- The code that the protocol document asks for when a frame is malformed:
`InvalidVersion` for another version, `ProtocolError` for anything else. -/
def requiredCode (frame : Bytes) : ErrorCode :=
  if FrameCodec.versionByte frame = 1 then .protocolError else .invalidVersion

theorem requiredCode_eq_protocolError {frame : Bytes} :
    requiredCode frame = .protocolError ↔ FrameCodec.versionByte frame = 1 := by
  unfold requiredCode
  split
  · rename_i hversion
    exact iff_of_true rfl hversion
  · rename_i hversion
    exact iff_of_false (by decide) hversion

/-- **The code of the `GoAway` is the required one exactly for frames of this
protocol version.**  Whatever bytes arrive, in whatever pieces, and whatever
the users and the other tasks do meanwhile: when the reader of a session that
is not closing has dispatched all frames before a malformed one, its turn ends
the loop with a `GoAway` that carries `ProtocolError`.  That is the code the
document asks for if and only if the version byte of the malformed frame is
right; then its type, its flag bits or its length is wrong. -/
theorem goAway_protocolError (cfg : Config) (role : Role)
    (xs : List Arrival) (e : Error) (rest : Bytes)
    (hopen : (after cfg role xs).session.isClosing = false)
    (hrun : (after cfg role xs).session.readerDone = false)
    (hbad : (FrameCodec.new cfg.maxFrameSize).decodeAll
      (after cfg role xs).received =
        ((after cfg role xs).frames, .error e, rest)) :
    (after cfg role xs).next.session.readerDone = true ∧
    (after cfg role xs).next.session.out.queue =
      (after cfg role xs).session.out.queue ++ [.goAway .protocolError] ∧
    ((after cfg role xs).next.session.out.queue =
        (after cfg role xs).session.out.queue ++ [.goAway (requiredCode rest)] ↔
      FrameCodec.versionByte rest = 1) ∧
    (FrameCodec.versionByte rest = 1 →
      ¬ FrameCodec.typeByte rest ≤ 3 ∨
      ¬ (FrameCodec.flagsWord rest).toNat < 16 ∨
      ¬ FrameCodec.WithinLimit cfg.maxFrameSize rest) := by
  have hreads := reads_after cfg role xs
  obtain ⟨hdone, hqueue⟩ := hreads.report hopen hrun hbad
  refine ⟨hdone, hqueue, ?_, fun hversion => ?_⟩
  · rw [hqueue, List.append_cancel_left_eq, List.cons_eq_cons,
      Frame.goAway.injEq, and_iff_left rfl, eq_comm,
      requiredCode_eq_protocolError]
  obtain ⟨hd, -⟩ := hreads.refused hbad
  obtain ⟨-, hd'⟩ | ⟨-, hgrammar, -⟩ | ⟨-, -, -, -, hd'⟩ |
    ⟨-, -, -, -, f, r, hd'⟩ := FrameCodec.decode_outcome cfg.maxFrameSize rest
  · cases hd'.symm.trans hd
  · by_contra hnot
    simp only [not_or, not_not] at hnot
    exact hgrammar ⟨⟨hversion, hnot.1, hnot.2.1⟩, hnot.2.2⟩
  · cases hd'.symm.trans hd
  · cases hd'.symm.trans hd

/-- A ping and half a header, then the rest of a header with a type byte of
nine. -/
def unknownType : List Arrival :=
  [.arrive [1, 2, 0, 0, 0, 0, 0, 0, 0, 0, 0, 7, 1, 9, 0], .next,
    .act .openStart, .next, .arrive [0, 0, 0, 0, 1, 0, 0, 0, 0]]

/-- The second frame of `unknownType` is reported after the reply to the first,
with the required code. -/
theorem goAway_protocolError_unknownType :
    (after Config.default .server unknownType).next.session.out.queue =
      [.pong 7, .syn 2,
        .goAway (requiredCode [1, 9, 0, 0, 0, 0, 0, 1, 0, 0, 0, 0])] := by
  have hbad : (FrameCodec.new Config.default.maxFrameSize).decodeAll
      (after Config.default .server unknownType).received =
      ((after Config.default .server unknownType).frames,
        .error (.protocol "unknown frame type"),
        [1, 9, 0, 0, 0, 0, 0, 1, 0, 0, 0, 0]) := by
    have hping : (FrameCodec.new Config.default.maxFrameSize).decode
        (after Config.default .server unknownType).received =
        (.ok (some (.mkPing 7)), [1, 9, 0, 0, 0, 0, 0, 1, 0, 0, 0, 0]) := rfl
    rw [FrameCodec.decodeAll_some hping, FrameCodec.decodeAll_error rfl]
    rfl
  exact (goAway_protocolError Config.default .server unknownType _ _ rfl rfl
    hbad).2.2.1.mpr (by decide)

/-- A header of another protocol version. -/
def otherVersion : List Arrival :=
  [.arrive [2, 0, 0, 0], .next, .arrive [0, 0, 0, 1, 0, 0, 0, 0]]

/-- **A frame of another version is reported as a protocol error**, not with
the code the protocol has for it. -/
theorem otherVersion_protocolError :
    (after Config.default .server otherVersion).session.isClosing = false ∧
    (after Config.default .server otherVersion).session.readerDone = false ∧
    (∃ e, (FrameCodec.new Config.default.maxFrameSize).decodeAll
      (after Config.default .server otherVersion).received =
        ((after Config.default .server otherVersion).frames, .error e,
          [2, 0, 0, 0, 0, 0, 0, 1, 0, 0, 0, 0])) ∧
    FrameCodec.versionByte [2, 0, 0, 0, 0, 0, 0, 1, 0, 0, 0, 0] ≠ 1 ∧
    (after Config.default .server otherVersion).next.session.out.queue =
      [.goAway .protocolError] ∧
    Frame.goAway .protocolError ≠ .goAway .invalidVersion := by
  have hbad : (FrameCodec.new Config.default.maxFrameSize).decode
      (after Config.default .server otherVersion).received =
      (.error (.protocol "unsupported protocol version"),
        [2, 0, 0, 0, 0, 0, 0, 1, 0, 0, 0, 0]) := rfl
  exact ⟨rfl, rfl, ⟨_, FrameCodec.decodeAll_error hbad⟩, by decide, rfl,
    by decide⟩

end Inbound

end NetMux
