import NetMux.Endpoint.Machine

/-!
# Frames the stream layer makes and the codec takes

`poll_write` cuts the buffer to the configured frame size and to the credit.
The codec cuts the configured frame size to its own ceiling of 16 MiB.  Below
the ceiling the two agree, and what a stream sends the session's own writer
encodes and a peer with the same configuration decodes.  Above it a single
write can be longer than what the writer takes, which ends the session.
-/

namespace NetMux

open Lib Lib.Run

namespace FrameCodec

/-- The encoder takes the frame, and the decoder gives it back. -/
def Carries (c : FrameCodec) (f : Frame) : Prop :=
  (∀ dst, c.encode f dst = .ok (dst ++ encoding f)) ∧
    ∀ rest, c.decode (encoding f ++ rest) = (.ok (some f.normalize), rest)

theorem carries_iff (c : FrameCodec) {f : Frame} (hf : f.FlagsDefined) :
    c.Carries f ↔ f.payloadLen ≤ c.maxPayload.toNat := by
  constructor
  · rintro ⟨henc, -⟩
    have hnil := henc []
    rw [encode_eq] at hnil
    split at hnil
    · cases hnil
    · omega
  · intro hle
    have hnot := Nat.not_lt.mpr hle
    have hlt := c.maxPayload.toNat_lt
    refine ⟨fun dst => ?_, fun rest => ?_⟩
    · rw [encode_eq, if_neg hnot]
    · rw [decode_encoding c f rest hf (by omega), if_neg hnot]

end FrameCodec

namespace StreamInner

/-- The codec carries the frame of a write just when it is at most 16 MiB. -/
theorem carries_data_iff (s : StreamInner) (buf : Bytes) :
    (FrameCodec.new s.config.maxFrameSize).Carries
        (.data s.id Flags.empty (buf.take (s.writeSize buf))) ↔
      s.writeSize buf ≤ absoluteMaxPayload.toNat := by
  have hsize : s.writeSize buf ≤ buf.length ∧
      s.writeSize buf ≤ s.config.maxFrameSize.toNat := by
    unfold writeSize
    omega
  have hlen : (Frame.data s.id Flags.empty
      (buf.take (s.writeSize buf))).payloadLen = s.writeSize buf := by
    rw [Frame.payloadLen, List.length_take]
    omega
  have hflags : (Frame.data s.id Flags.empty
      (buf.take (s.writeSize buf))).FlagsDefined :=
    (by decide : Flags.empty.Defined)
  rw [FrameCodec.carries_iff _ hflags, hlen, FrameCodec.new_maxPayload]
  omega

/-- A write that nothing stops and that has more than 16 MiB to send: the
stream is not reset, its write half and its window are open, the outbound
queue has its receiver, and the buffer, the configured frame size and the
credit all exceed 16 MiB. -/
def tooLong (s : StreamInner) (outOpen : Bool) (buf : Bytes) : Bool :=
  !s.state.reset && s.state.writeOpen && !s.sendWindow.closed && outOpen &&
    decide (absoluteMaxPayload.toNat < s.writeSize buf)

/-- **A write fits the codec exactly when it is not too long.** -/
theorem carries_pollWrite_iff (s : StreamInner) (outOpen : Bool)
    (buf : Bytes) :
    (∀ f ∈ (s.pollWrite outOpen buf).2.2.frames,
      (FrameCodec.new s.config.maxFrameSize).Carries f) ↔
        s.tooLong outOpen buf = false := by
  -- a write that sends nothing is not too long
  have hnone : s.tooLong outOpen buf = false →
      ((∀ f ∈ Emit.none.frames,
        (FrameCodec.new s.config.maxFrameSize).Carries f) ↔
          s.tooLong outOpen buf = false) := fun hfits =>
    ⟨fun _ => hfits, fun _ _ hf => absurd hf List.not_mem_nil⟩
  have hzero : s.writeSize buf = 0 → s.tooLong outOpen buf = false := by
    intro hsize
    simp [tooLong, hsize]
  rw [pollWrite_eq]
  split_ifs with hreset hopen hbuf hclosed hcredit hout
  · exact hnone (by simp [tooLong, hreset])
  · exact hnone (by simp [tooLong, Bool.not_eq_true' .. ▸ hopen])
  · exact hnone (hzero (by simp [writeSize, List.isEmpty_iff.mp hbuf]))
  · exact hnone (by simp [tooLong, hclosed])
  · exact hnone (hzero (by simp [writeSize, hcredit]))
  · exact hnone (by simp [tooLong, Bool.not_eq_true' .. ▸ hout])
  · rw [List.forall_mem_singleton, carries_data_iff]
    rw [Bool.not_eq_true, Bool.not_eq_false'] at hopen hout
    rw [Bool.not_eq_true] at hreset hclosed
    simp [tooLong, hreset, hopen, hclosed, hout]

end StreamInner

/-- Streams keep their configuration, and frames without payload fit. -/
theorem streamInv_carries (cfg : Config) :
    StreamInv cfg (fun s => s.config = cfg)
      (FrameCodec.new cfg.maxFrameSize).Carries where
  plain := fun f hf => by
    rw [FrameCodec.carries_iff _ hf.1, hf.2]
    exact Nat.zero_le _
  new := fun _ _ => rfl
  pollRead := fun s n h => (StreamInner.pollRead_same s n).config.trans h
  pollWrite := fun s o buf h => (StreamInner.pollWrite_same s o buf).config.trans h
  localFin := fun s h => by
    rw [← h]
    unfold StreamInner.localFin
    dsimp only
    repeat' split
    all_goals rfl
  localReset := fun _ h => StreamInner.localReset_same.config.trans h
  forceClose := fun _ h => h
  markAcked := fun _ h => h
  remoteFin := fun _ h => h
  remoteReset := fun _ h => h
  grantSendCredit := fun _ _ h => h

namespace Session

/-- The input is a write of more than 16 MiB that nothing stops. -/
def oversized (s : Session) : Input → Bool
  | .act (.pollWrite h buf) =>
      match s.handleAt h with
      | none => false
      | some c => c.inner.tooLong (!s.out.closed) buf
  | _ => false

/-- A write that is not oversized is carried, and no other is. -/
theorem carries_iff_not_oversized {cfg : Config} {s : Session} {h : Ref}
    {c : Cell} (hc : s.handleAt h = some c) (hcfg : c.inner.config = cfg)
    (buf : Bytes) :
    (∀ f ∈ (c.inner.pollWrite (!s.out.closed) buf).2.2.frames,
      (FrameCodec.new cfg.maxFrameSize).Carries f) ↔
        s.oversized (.act (.pollWrite h buf)) = false := by
  rw [← hcfg, StreamInner.carries_pollWrite_iff, oversized, hc]

theorem admits_of_not_oversized {cfg : Config} {s : Session} {x : Input}
    (hs : Each cfg (fun s => s.config = cfg)
      (FrameCodec.new cfg.maxFrameSize).Carries s)
    (h : s.oversized x = false) :
    Admits (fun s => s.config = cfg)
      (FrameCodec.new cfg.maxFrameSize).Carries s x := by
  unfold Admits
  split
  · intro _ stream hstream _ _
    exact ⟨(StreamInner.pushData_same _ _).config.trans hstream,
      (StreamInner.pushData_same _ _).config.trans hstream⟩
  · rename_i n buf
    exact fun c hc => (carries_iff_not_oversized hc (hs.handleAt hc) buf).mpr h
  · trivial

/-- The writer does not fail on frames that its codec carries. -/
theorem writerNext_carried {s : Session}
    (h : ∀ f ∈ s.out.queue, s.codec.Carries f) :
    s.writerNext.2.isClosing = s.isClosing ∧
      s.writerNext.2.encodeFailed = s.encodeFailed := by
  unfold writerNext
  split
  · exact ⟨rfl, rfl⟩
  · rename_i f rest _ hq
    have henc := (h f (by rw [hq]; exact List.mem_cons_self ..)).1 []
    dsimp only
    split
    · exact ⟨rfl, rfl⟩
    · rename_i herr
      exact nomatch henc.symm.trans herr
  · exact ⟨rfl, rfl⟩
  · rename_i f rest _ hq
    have henc := (h f (by rw [hq]; exact List.mem_cons_self ..)).1 []
    dsimp only
    split
    · exact ⟨rfl, rfl⟩
    · rename_i herr
      exact nomatch henc.symm.trans herr
  · exact ⟨rfl, rfl⟩
  · exact ⟨rfl, rfl⟩

/-- **What the streams send the codec takes**, up to 16 MiB.  In every run of
a session without a write that has more than 16 MiB to send and that nothing
stops, every frame in the outbound queue is encoded by the session's writer
and decoded by a peer with the same configuration; so the writer never fails
on a frame and never begins a shutdown.  For the next write the condition is
exact: what it enqueues is encoded and decoded if and only if the write is not
of that kind. -/
theorem writes_fit (cfg : Config) (role : Role) (xs : List Input)
    (hrun : Along take (fun s x => s.oversized x = false) (new cfg role) xs) :
    (∀ f ∈ (run take (new cfg role) xs).out.queue,
      (FrameCodec.new cfg.maxFrameSize).Carries f) ∧
    (run take (new cfg role) xs).writerNext.2.isClosing =
      (run take (new cfg role) xs).isClosing ∧
    (run take (new cfg role) xs).writerNext.2.encodeFailed =
      (run take (new cfg role) xs).encodeFailed ∧
    ∀ h c buf, (run take (new cfg role) xs).handleAt h = some c →
      ((∀ f ∈ (c.inner.pollWrite (!(run take (new cfg role) xs).out.closed)
          buf).2.2.frames, (FrameCodec.new cfg.maxFrameSize).Carries f) ↔
        (run take (new cfg role) xs).oversized (.act (.pollWrite h buf)) =
          false) := by
  have hall := Each.run (streamInv_carries cfg)
    (fun s x hs hx => admits_of_not_oversized hs hx) hrun
  have hcodec : ∀ f ∈ (run take (new cfg role) xs).out.queue,
      (run take (new cfg role) xs).codec.Carries f := by
    unfold codec
    rw [hall.config]
    exact hall.out
  obtain ⟨hclosing, hfailed⟩ := writerNext_carried hcodec
  exact ⟨hall.out, hclosing, hfailed, fun h c buf hc =>
    carries_iff_not_oversized hc (hall.handleAt hc) buf⟩

/-- Frames and windows of one byte more than 16 MiB. -/
def bigConfig : Config :=
  { Config.default with
    maxFrameSize := 16777217
    initialStreamWindow := 16777217 }

/-- A stream is accepted and the `ACK` is on the wire. -/
def acceptInputs : List Input :=
  [.frame (.syn 1), .act .accept, .act .writerNext]

/-- The session after that. -/
def accepted : Session := run take (new bigConfig .server) acceptInputs

/-- A buffer of one byte more than 16 MiB is sent in one frame. -/
theorem accepted_pollWrite {buf : Bytes} (hlen : buf.length = 16777217) :
    (accepted.pollWrite 0 buf).out.queue = [.data 1 Flags.empty buf] := by
  have hhandle : accepted.handleAt 0 = some (Cell.new
      (StreamInner.new 1 .remotely bigConfig) .handle) := by
    decide +kernel
  have hout : accepted.out = ⟨[], false⟩ := by
    decide +kernel
  have hsize : (StreamInner.new 1 .remotely bigConfig).writeSize buf =
      buf.length := by
    unfold StreamInner.writeSize
    rw [hlen]
    decide
  have hbuf : buf.isEmpty = false := by
    cases buf with
    | nil => cases hlen
    | cons b buf => rfl
  have hframes : ((StreamInner.new 1 .remotely bigConfig).pollWrite
      (!accepted.out.closed) buf).2.2.frames = [.data 1 Flags.empty buf] := by
    rw [StreamInner.pollWrite_eq, hout, if_neg (by decide), if_neg (by decide),
      hbuf, if_neg (by decide), if_neg (by decide), if_neg (by decide),
      if_neg (by decide), hsize, List.take_length]
    rfl
  unfold pollWrite
  rw [hhandle]
  show (accepted.out.sendAll ((StreamInner.new 1 .remotely bigConfig).pollWrite
    (!accepted.out.closed) buf).2.2.frames).queue = _
  rw [hframes, hout]
  rfl

/-- The writer refuses that frame and shuts the session down. -/
theorem accepted_longWrite {buf : Bytes} (hlen : buf.length = 16777217) :
    (run take (new bigConfig .server) (acceptInputs ++
      [.act (.pollWrite 0 buf), .act .writerNext])).encodeFailed = true ∧
    (run take (new bigConfig .server) (acceptInputs ++
      [.act (.pollWrite 0 buf), .act .writerNext])).isClosing = true := by
  have hrun : run take (new bigConfig .server) (acceptInputs ++
      [.act (.pollWrite 0 buf), .act .writerNext]) =
        (accepted.pollWrite 0 buf).writerNext.2 := by
    rw [run_append]
    rfl
  have hsame : (accepted.pollWrite 0 buf).writer = accepted.writer ∧
      (accepted.pollWrite 0 buf).codec = accepted.codec := by
    unfold pollWrite
    split
    · exact ⟨rfl, rfl⟩
    · exact ⟨rfl, rfl⟩
  have hphase : accepted.writer = .running := by
    decide +kernel
  have hcodec : accepted.codec.maxPayload.toNat = 16777216 := by
    decide +kernel
  have htoo : (accepted.pollWrite 0 buf).codec.maxPayload.toNat <
      (Frame.data 1 Flags.empty buf).payloadLen := by
    rw [hsame.2, hcodec, Frame.payloadLen, hlen]
    decide
  rw [hrun, System.writerNext_running (hsame.1.trans hphase)
    (accepted_pollWrite hlen), if_pos htoo]
  -- With the session named, no step below evaluates the write.
  generalize System.popOut (accepted.pollWrite 0 buf) [] = s
  exact ⟨rfl, s.initiateShutdown_isClosing _⟩

/-- The builder produces such a configuration, and one write ends the
session. -/
theorem longWrite_fails :
    bigConfig.Built ∧
    (run take (new bigConfig .server) (acceptInputs ++
      [.act (.pollWrite 0 (List.replicate 16777217 0)),
        .act .writerNext])).encodeFailed = true ∧
    (run take (new bigConfig .server) (acceptInputs ++
      [.act (.pollWrite 0 (List.replicate 16777217 0)),
        .act .writerNext])).isClosing = true :=
  ⟨(Config.built_iff bigConfig).mpr (by decide),
    accepted_longWrite List.length_replicate⟩

/-- A short write with the same configuration. -/
theorem writes_fit_short :
    (run take (new bigConfig .server) (acceptInputs ++
      [.act (.pollWrite 0 [1, 2, 3])])).out.queue =
        [.data 1 Flags.empty [1, 2, 3]] ∧
    (run take (new bigConfig .server) (acceptInputs ++
      [.act (.pollWrite 0 [1, 2, 3])])).writerNext.2.isClosing = false := by
  have hstate : (run take (new bigConfig .server) (acceptInputs ++
      [.act (.pollWrite 0 [1, 2, 3])])).out.queue =
        [.data 1 Flags.empty [1, 2, 3]] ∧
      (run take (new bigConfig .server) (acceptInputs ++
        [.act (.pollWrite 0 [1, 2, 3])])).isClosing = false := by
    decide +kernel
  obtain ⟨-, hclosing, -, -⟩ := writes_fit bigConfig .server (acceptInputs ++
    [.act (.pollWrite 0 [1, 2, 3])]) (by decide +kernel)
  exact ⟨hstate.1, hclosing.trans hstate.2⟩

end Session

end NetMux
