import NetMux.Stream.Lifecycle

/-!
# Writing a buffer in pieces

`poll_write` sends at most one frame's worth of the buffer it is given, so a
user writes a long buffer by calling it again with the rest.  `Sending` is
that loop: between two attempts the stream may undergo anything, grants of
credit above all, and an attempt that does not succeed is repeated.  Whatever
happens, the frames carry the written part of the buffer and nothing else.
-/

namespace NetMux

open Lib.Run

namespace StreamInner

/-- No operation changes the configuration or the id. -/
theorem perform_same (s : StreamInner) (outOpen : Bool) (op : Op) :
    Same s (s.perform outOpen op).2.1 := by
  have hfin : Same s s.localFin.1 := by
    unfold localFin
    dsimp only
    split_ifs <;> exact ⟨rfl, rfl, rfl⟩
  cases op with
  | pushData payload => exact pushData_same s payload
  | remoteFin => exact remoteFin_same s
  | remoteReset => exact remoteReset_same s
  | grantSendCredit delta => exact grantSendCredit_same s delta
  | markAcked => exact markAcked_same s
  | forceClose => exact forceClose_same s
  | pollRead remaining => exact pollRead_same s remaining
  | pollWrite buf => exact pollWrite_same s outOpen buf
  | localFin => exact hfin
  | localReset => exact localReset_same
  | onUserDrop =>
      show Same s s.onUserDrop.1
      unfold onUserDrop
      split
      · exact hfin
      · exact Same.refl s

/-- The two ways a write of a non-empty buffer ends. -/
structure Wrote (s : StreamInner) (buf : Bytes) (n : Nat)
    (r : Poll (Except IoError Nat) × StreamInner × Emit) : Prop where
  size : n = min buf.length
    (min s.config.maxFrameSize.toNat s.sendWindow.available.toNat)
  pos : 1 ≤ n
  result : r.1 = .ready (.ok n)
  frames : r.2.2.frames = [.data s.id Flags.empty (buf.take n)]
  debit : r.2.1.sendWindow.available.toNat + n =
    s.sendWindow.available.toNat

/-- A write that did not succeed, and left no trace. -/
structure Refused (s : StreamInner)
    (r : Poll (Except IoError Nat) × StreamInner × Emit) : Prop where
  result : r.1 = .pending ∨ ∃ e, r.1 = .ready (.error e)
  frames : r.2.2.frames = []
  credit : r.2.1.sendWindow.available = s.sendWindow.available

/-- **A write is all or nothing.** -/
theorem pollWrite_cases (s : StreamInner) (outOpen : Bool) {buf : Bytes}
    (hmax : 1 ≤ s.config.maxFrameSize.toNat) (hbuf : buf ≠ []) :
    (∃ n, Wrote s buf n (s.pollWrite outOpen buf)) ∨
      Refused s (s.pollWrite outOpen buf) := by
  have hr := pollWrite_eq s outOpen buf
  split_ifs at hr with hreset hopen hempty hclosed hzero hout <;> rw [hr]
  · exact .inr ⟨.inr ⟨_, rfl⟩, rfl, rfl⟩
  · exact .inr ⟨.inr ⟨_, rfl⟩, rfl, rfl⟩
  · exact absurd (List.isEmpty_iff.mp hempty) hbuf
  · exact .inr ⟨.inr ⟨_, rfl⟩, rfl, rfl⟩
  · exact .inr ⟨.inl rfl, rfl, rfl⟩
  · exact .inr ⟨.inr ⟨_, rfl⟩, rfl, rfl⟩
  · have hlen := List.length_pos_iff.mpr hbuf
    have hcredit : 1 ≤ s.sendWindow.available.toNat := by
      rw [← UInt32.toNat_inj, UInt32.toNat_zero] at hzero
      omega
    have hsize := toNat_writeSize s buf
    have hle : s.writeSize buf ≤ s.sendWindow.available.toNat :=
      Nat.min_le_right _ _
    refine .inl ⟨s.writeSize buf, Nat.min_assoc _ _ _, ?_, rfl, rfl, ?_⟩
    · unfold writeSize
      omega
    · have hle' : UInt32.ofNat (s.writeSize buf) ≤ s.sendWindow.available := by
        rw [UInt32.le_iff_toNat_le, hsize]
        exact hle
      show (s.sendWindow.available - UInt32.ofNat (s.writeSize buf)).toNat +
        s.writeSize buf = _
      rw [UInt32.toNat_sub_of_le _ _ hle', hsize]
      omega

end StreamInner

/-! ## The loop -/

/-- A stream whose user writes a buffer: the rest of it, the number of bytes
reported as written, and the frames of the attempts. -/
structure Sending where
  inner : StreamInner
  rest : Bytes
  written : Nat
  frames : List Frame

namespace Sending

open StreamInner

/-- What happens to a stream while its user writes. -/
inductive Turn where
  /-- Another operation, such as a grant of credit. -/
  | other (c : Life.Call)
  /-- The user writes the rest of the buffer. -/
  | write (outOpen : Bool)
  deriving DecidableEq, Repr

/-- Begin to write a buffer. -/
def start (s : StreamInner) (buf : Bytes) : Sending := ⟨s, buf, 0, []⟩

/-- Go on behind the bytes that were written. -/
def accept (x : Sending) (r : Poll (Except IoError Nat) × StreamInner × Emit) :
    Sending :=
  match r.1 with
  | .ready (.ok n) =>
      ⟨r.2.1, x.rest.drop n, x.written + n, x.frames ++ r.2.2.frames⟩
  | _ => { x with inner := r.2.1, frames := x.frames ++ r.2.2.frames }

def step (x : Sending) : Turn → Sending
  | .other c => { x with inner := (x.inner.perform c.outOpen c.op).2.1 }
  | .write outOpen =>
      if x.rest.isEmpty then x else x.accept (x.inner.pollWrite outOpen x.rest)

/-- The payload of a frame. -/
def payloadOf : Frame → Bytes
  | .data _ _ payload => payload
  | _ => []

/-- The account of the loop: the rest is what is left of the buffer behind
the written part, and the frames carry that part in pieces of one frame. -/
structure Carries (s : StreamInner) (buf : Bytes) (x : Sending) : Prop where
  same : Same s x.inner
  bound : x.written ≤ buf.length
  rest : x.rest = buf.drop x.written
  payload : x.frames.flatMap payloadOf = buf.take x.written
  sized : ∀ f ∈ x.frames, ∃ payload, f = .data s.id Flags.empty payload ∧
    1 ≤ payload.length ∧ payload.length ≤ s.config.maxFrameSize.toNat

section Step

variable {s : StreamInner} {buf : Bytes} {x : Sending}

/-- A write of the rest that succeeds moves on by what it reports. -/
theorem Carries.wrote (h : Carries s buf x) {n : Nat}
    {r : Poll (Except IoError Nat) × StreamInner × Emit}
    (hw : Wrote x.inner x.rest n r) (hsame : Same x.inner r.2.1) :
    Carries s buf (x.accept r) := by
  have hsize := hw.size
  have hpos := hw.pos
  have hbound := h.bound
  have hlen : x.rest.length = buf.length - x.written := by
    rw [h.rest, List.length_drop]
  rw [h.same.config] at hsize
  rw [accept, hw.result, hw.frames, h.same.id]
  refine ⟨h.same.trans hsame, ?_, ?_, ?_, ?_⟩
  · show x.written + n ≤ buf.length
    omega
  · show x.rest.drop n = buf.drop (x.written + n)
    rw [h.rest, List.drop_drop]
  · show (x.frames ++ [_]).flatMap payloadOf = buf.take (x.written + n)
    rw [List.flatMap_append, h.payload, List.take_add, ← h.rest]
    simp [payloadOf]
  · intro f hf
    rcases List.mem_append.mp hf with hf | hf
    · exact h.sized f hf
    · refine ⟨_, List.mem_singleton.mp hf, ?_, ?_⟩ <;>
        rw [List.length_take] <;> omega

/-- One that does not leaves everything as it was. -/
theorem Carries.refused (h : Carries s buf x)
    {r : Poll (Except IoError Nat) × StreamInner × Emit}
    (hr : Refused x.inner r) (hsame : Same x.inner r.2.1) :
    Carries s buf (x.accept r) := by
  have hx : x.accept r = { x with inner := r.2.1 } := by
    rcases hr.result with hp | ⟨e, he⟩
    · rw [accept, hp, hr.frames, List.append_nil]
    · rw [accept, he, hr.frames, List.append_nil]
  rw [hx]
  exact ⟨h.same.trans hsame, h.bound, h.rest, h.payload, h.sized⟩

theorem Carries.step (hmax : 1 ≤ s.config.maxFrameSize.toNat)
    (h : Carries s buf x) (t : Turn) : Carries s buf (x.step t) := by
  cases t with
  | other c =>
      have hone := perform_same x.inner c.outOpen c.op
      exact ⟨h.same.trans hone, h.bound, h.rest, h.payload, h.sized⟩
  | write outOpen =>
      show Carries s buf (if x.rest.isEmpty then x else _)
      split
      · exact h
      rename_i hrest
      rw [List.isEmpty_iff] at hrest
      have hone := pollWrite_same x.inner outOpen x.rest
      rw [← h.same.config] at hmax
      obtain ⟨n, hw⟩ | hr := pollWrite_cases x.inner outOpen hmax hrest
      · exact h.wrote hw hone
      · exact h.refused hr hone

end Step

/-- **Writing is all or nothing, and writing the rest again sends the buffer
in order.**  With a configuration from the builder, a write of a non-empty
buffer succeeds with the smallest of its length, the frame size and the
credit, at least one byte, for one `Data` frame and as much credit; or it
leaves queue and credit alone.  Written again and again, whatever happens to
the stream in between, a buffer leaves in frames of at most the frame size
that carry exactly the part reported as written. -/
theorem pollWrite_progress (cfg : Config) (hcfg : cfg.Built) (s : StreamInner)
    (hs : s.config = cfg) (outOpen : Bool) (buf : Bytes) (hbuf : buf ≠ [])
    (turns : List Turn) :
    ((∃ n, Wrote s buf n (s.pollWrite outOpen buf)) ∨
      Refused s (s.pollWrite outOpen buf)) ∧
    Carries s buf (run step (start s buf) turns) := by
  have hmax : 1 ≤ s.config.maxFrameSize.toNat :=
    hs ▸ ((Config.built_iff cfg).mp hcfg).2.1
  refine ⟨pollWrite_cases s outOpen hmax hbuf, ?_⟩
  exact run_invariant_all step (fun _ t h => h.step hmax t) turns _
    ⟨Same.refl s, Nat.zero_le _, rfl, rfl,
      fun _ hf => absurd hf List.not_mem_nil⟩

/-- Ten bytes through a window of six and frames of four, with a grant of
three in between. -/
theorem pollWrite_progress_sixThenThree :
    let cfg := ((ConfigBuilder.new.initialStreamWindow 6).maxFrameSize 4).build
    let x := run step (start (StreamInner.new 1 .locally cfg)
      [0, 1, 2, 3, 4, 5, 6, 7, 8, 9])
      [.write true, .write true, .write true,
        .other ⟨.grantSendCredit 3, true⟩, .write true]
    x.written = 9 ∧
      x.frames.flatMap payloadOf = [0, 1, 2, 3, 4, 5, 6, 7, 8] := by
  intro cfg x
  have hcfg : cfg.Built :=
    ⟨_, (ConfigBuilder.Chain.new.initialStreamWindow 6).maxFrameSize 4, rfl⟩
  have hwritten : x.written = 9 := by decide +kernel
  have hcarries := (pollWrite_progress cfg hcfg (StreamInner.new 1 .locally cfg)
    rfl true [0, 1, 2, 3, 4, 5, 6, 7, 8, 9] (by decide)
    [.write true, .write true, .write true,
      .other ⟨.grantSendCredit 3, true⟩, .write true]).2
  refine ⟨hwritten, hcarries.payload.trans ?_⟩
  exact congrArg (List.take · _) hwritten

end Sending

end NetMux
