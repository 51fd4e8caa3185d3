import Mathlib.Data.List.Basic
import NetMux.Protocol.Header

/-!
# The frame codec

`FrameCodec.encode` appends one frame to a buffer and `FrameCodec.decode`
takes at most one frame off the front of a buffer.  The length field of the
header is a payload length for `Data` and free metadata for the other three
types, so frame boundaries are recovered from the type and the length
together.  `decodeAll` is the decode loop run until it yields nothing more.

## Main results

* `decode_encoding` — decoding an encoded frame followed by anything returns
  the frame and leaves the rest.
* `transit_eq` — what a peer's codec makes of one encoded frame.
* `decodeAll_encodeAll` — the round trip over whole frame lists.
-/

namespace NetMux

/-- Hard ceiling on a single decoded payload. -/
def absoluteMaxPayload : UInt32 := 16 * 1024 * 1024

/-- Codec converting between byte streams and frames. -/
structure FrameCodec where
  maxPayload : UInt32
  deriving DecidableEq, Repr

namespace FrameCodec

def new (maxPayload : UInt32) : FrameCodec :=
  ⟨min maxPayload absoluteMaxPayload⟩

theorem new_maxPayload (m : UInt32) :
    (new m).maxPayload.toNat = min m.toNat absoluteMaxPayload.toNat :=
  UInt32.toNat_min m absoluteMaxPayload

/-! ## Decoding -/

/-- The first twelve bytes of a buffer that holds at least a header. -/
def headerBytes (src : Bytes) (h : ¬ src.length < headerLen) :
    Vector UInt8 12 :=
  ⟨(src.take 12).toArray, by
    simp only [headerLen] at h
    simp only [List.size_toArray, List.length_take]
    omega⟩

/-- The number of payload bytes that follow a header. -/
def payloadLenOf (header : Header) : UInt32 :=
  match header.frameType with
  | .data => header.length
  | .windowUpdate | .ping | .goAway => 0

/-- The frame a header and its payload stand for. -/
def frameOf (header : Header) (payload : Bytes) : Frame :=
  match header.frameType with
  | .data => .data header.streamId header.flags payload
  | .windowUpdate => .windowUpdate header.streamId header.flags header.length
  | .ping => .ping header.flags header.length
  | .goAway => .goAway (ErrorCode.ofU32 header.length)

/-- Take one frame off the buffer.  The second component is the buffer
afterwards. -/
def decode (c : FrameCodec) (src : Bytes) :
    Except Error (Option Frame) × Bytes :=
  if h : src.length < headerLen then (.ok none, src)
  else
    match Header.decode (headerBytes src h) with
    | .error e => (.error e, src)
    | .ok header =>
      let payloadLen := payloadLenOf header
      if c.maxPayload < payloadLen then
        (.error (.protocol "frame payload exceeds limit"), src)
      else if src.length < headerLen + payloadLen.toNat then (.ok none, src)
      else
        let body := src.drop headerLen
        (.ok (some (frameOf header (body.take payloadLen.toNat))),
          body.drop payloadLen.toNat)

/-- A decoded frame consumes at least a header. -/
theorem decode_some_length (c : FrameCodec) (src rest : Bytes) (f : Frame)
    (h : c.decode src = (.ok (some f), rest)) :
    rest.length + headerLen ≤ src.length := by
  unfold decode at h
  split at h
  · simp at h
  · rename_i hlen
    split at h
    · simp at h
    · simp only at h
      split_ifs at h
      · simp at h
      · simp at h
      · simp only [Prod.mk.injEq] at h
        rw [← h.2, List.length_drop, List.length_drop]
        omega

/-- The decode loop: frames until the buffer yields no further one, the
outcome that ended the loop, and the bytes left. -/
def decodeAll (c : FrameCodec) (src : Bytes) :
    List Frame × Except Error Unit × Bytes :=
  match _h : c.decode src with
  | (.error e, rest) => ([], .error e, rest)
  | (.ok none, rest) => ([], .ok (), rest)
  | (.ok (some f), rest) =>
      (f :: (decodeAll c rest).1, (decodeAll c rest).2)
termination_by src.length
decreasing_by
  all_goals
    have := decode_some_length c src rest f _h
    simp only [headerLen] at this
    omega

theorem decodeAll_error {c : FrameCodec} {src rest : Bytes} {e : Error}
    (h : c.decode src = (.error e, rest)) :
    c.decodeAll src = ([], .error e, rest) := by
  rw [decodeAll]
  split <;> simp_all

theorem decodeAll_none {c : FrameCodec} {src rest : Bytes}
    (h : c.decode src = (.ok none, rest)) :
    c.decodeAll src = ([], .ok (), rest) := by
  rw [decodeAll]
  split <;> simp_all

theorem decodeAll_some {c : FrameCodec} {src rest : Bytes} {f : Frame}
    (h : c.decode src = (.ok (some f), rest)) :
    c.decodeAll src = (f :: (c.decodeAll rest).1, (c.decodeAll rest).2) := by
  rw [decodeAll]
  split <;> simp_all

/-! ## Encoding -/

/-- Header and payload of a frame. -/
def parts : Frame → Header × Bytes
  | .data id flags payload =>
      (⟨protocolVersion, .data, flags, id, UInt32.ofNat payload.length⟩,
        payload)
  | .windowUpdate id flags delta =>
      (⟨protocolVersion, .windowUpdate, flags, id, delta⟩, [])
  | .ping flags nonce => (⟨protocolVersion, .ping, flags, 0, nonce⟩, [])
  | .goAway code =>
      (⟨protocolVersion, .goAway, Flags.empty, 0, code.asU32⟩, [])

/-- The bytes of a frame on the wire. -/
def encoding (f : Frame) : Bytes :=
  (parts f).1.encode.toList ++ (parts f).2

/-- Append one frame to the buffer; only an oversized `Data` payload is
refused. -/
def encode (c : FrameCodec) (frame : Frame) (dst : Bytes) :
    Except Error Bytes :=
  match frame with
  | .data _ _ payload =>
      if c.maxPayload.toNat < payload.length then
        .error (.protocol "data payload exceeds limit")
      else .ok (dst ++ encoding frame)
  | _ => .ok (dst ++ encoding frame)

/-- Encode a list of frames in order into one buffer. -/
def encodeAll (c : FrameCodec) : List Frame → Bytes → Except Error Bytes
  | [], dst => .ok dst
  | f :: fs, dst =>
      match c.encode f dst with
      | .error e => .error e
      | .ok dst' => encodeAll c fs dst'

/-- **The encoder refuses exactly the oversized payloads.** -/
theorem encode_eq (c : FrameCodec) (f : Frame) (dst : Bytes) :
    c.encode f dst =
      if c.maxPayload.toNat < f.payloadLen then
        .error (.protocol "data payload exceeds limit")
      else .ok (dst ++ encoding f) := by
  cases f with
  | data id flags payload => rfl
  | _ => simp [encode, Frame.payloadLen]

/-! ## One frame there and back -/

private theorem headerBytes_append (h : Header) (rest : Bytes)
    (hlen : ¬ (h.encode.toList ++ rest).length < headerLen) :
    headerBytes (h.encode.toList ++ rest) hlen = h.encode := by
  apply Vector.toList_inj.mp
  simp only [headerBytes, Vector.toList_mk]
  rw [List.take_append_of_le_length (by simp)]
  simp

/-- The header in front of any bytes is read back. -/
private theorem decode_header (c : FrameCodec) (h : Header) (rest : Bytes)
    (hv : h.version = protocolVersion) (hf : h.flags.Defined) :
    c.decode (h.encode.toList ++ rest) =
      if c.maxPayload < payloadLenOf h then
        (.error (.protocol "frame payload exceeds limit"),
          h.encode.toList ++ rest)
      else if rest.length < (payloadLenOf h).toNat then
        (.ok none, h.encode.toList ++ rest)
      else
        (.ok (some (frameOf h (rest.take (payloadLenOf h).toNat))),
          rest.drop (payloadLenOf h).toNat) := by
  have hhdr : h.encode.toList.length = headerLen := by simp [headerLen]
  have hlen : ¬ (h.encode.toList ++ rest).length < headerLen := by
    rw [List.length_append, hhdr]
    omega
  have hdrop : (h.encode.toList ++ rest).drop headerLen = rest := by
    rw [← hhdr, List.drop_left]
  have hshort : ((h.encode.toList ++ rest).length <
      headerLen + (payloadLenOf h).toNat) =
      (rest.length < (payloadLenOf h).toNat) := by
    rw [List.length_append, hhdr, Nat.add_lt_add_iff_left]
  rw [decode, dif_neg hlen, headerBytes_append]
  simp only [Header.decode_encode h hv hf, hdrop, hshort]

private theorem parts_version (f : Frame) :
    (parts f).1.version = protocolVersion := by
  cases f <;> rfl

private theorem parts_flags {f : Frame} :
    (parts f).1.flags.Defined ↔ f.FlagsDefined := by
  cases f with
  | goAway c =>
      exact ⟨fun _ => trivial, fun _ => (by decide : Flags.empty.Defined)⟩
  | _ => exact Iff.rfl

/-- The announced payload length is the payload's, as long as it fits the
length field. -/
private theorem payloadLenOf_parts {f : Frame} (h : f.payloadLen < 2 ^ 32) :
    (payloadLenOf (parts f).1).toNat = (parts f).2.length ∧
      (parts f).2.length = f.payloadLen := by
  cases f with
  | data id flags payload =>
      exact ⟨UInt32.toNat_ofNat_of_lt' h, rfl⟩
  | _ => exact ⟨rfl, rfl⟩

private theorem frameOf_parts (f : Frame) :
    frameOf (parts f).1 (parts f).2 = f.normalize := by
  cases f <;> rfl

/-- **Decoding an encoded frame.**  Whatever follows it, an encoded frame is
either refused for its size or returned whole with the rest left over. -/
theorem decode_encoding (c : FrameCodec) (f : Frame) (rest : Bytes)
    (hf : f.FlagsDefined) (hlen : f.payloadLen < 2 ^ 32) :
    c.decode (encoding f ++ rest) =
      if c.maxPayload.toNat < f.payloadLen then
        (.error (.protocol "frame payload exceeds limit"),
          encoding f ++ rest)
      else (.ok (some f.normalize), rest) := by
  obtain ⟨hp, hq⟩ := payloadLenOf_parts hlen
  have hshort : ¬ ((parts f).2 ++ rest).length <
      (payloadLenOf (parts f).1).toNat := by
    rw [List.length_append, hp]
    omega
  rw [encoding, List.append_assoc,
    decode_header c _ _ (parts_version f) (parts_flags.mpr hf), if_neg hshort, hp,
    List.take_left, List.drop_left, frameOf_parts]
  simp only [UInt32.lt_iff_toNat_lt, hp, hq]

/-- What a receiver's codec makes of the encoding of one frame. -/
def transit (c : FrameCodec) (f : Frame) : Except Error (Option Frame) :=
  (c.decode (encoding f)).1

theorem transit_eq (c : FrameCodec) (f : Frame) (hf : f.FlagsDefined)
    (hlen : f.payloadLen < 2 ^ 32) :
    c.transit f =
      if c.maxPayload.toNat < f.payloadLen then
        .error (.protocol "frame payload exceeds limit")
      else .ok (some f.normalize) := by
  have h := decode_encoding c f [] hf hlen
  rw [List.append_nil] at h
  rw [transit, h]
  split <;> rfl

/-- A frame with an undefined flag bit is refused. -/
theorem transit_undefined (c : FrameCodec) {f : Frame}
    (hf : ¬ f.FlagsDefined) :
    c.transit f = .error (.protocol "unknown flag bits") := by
  have hlen : ¬ (encoding f).length < headerLen := by
    simp [encoding, headerLen]
  have hdecode := Header.decode_undefined (parts f).1 (parts_version f)
    fun h => hf (parts_flags.mp h)
  rw [transit, decode, dif_neg hlen]
  simp only [encoding, headerBytes_append, hdecode]

/-! ## Whole frame lists -/

/-- Encoding a list whose payloads fit appends the encodings in order. -/
theorem encodeAll_eq (c : FrameCodec) (fs : List Frame)
    (h : ∀ f ∈ fs, f.payloadLen ≤ c.maxPayload.toNat) (dst : Bytes) :
    c.encodeAll fs dst = .ok (dst ++ fs.flatMap encoding) := by
  induction fs generalizing dst with
  | nil => simp [encodeAll]
  | cons f fs ih =>
      have hf : ¬ c.maxPayload.toNat < f.payloadLen := by
        have := h f (by simp)
        omega
      rw [encodeAll, encode_eq, if_neg hf]
      simp only
      rw [ih (fun g hg => h g (by simp [hg])), List.flatMap_cons,
        List.append_assoc]

/-- The decode loop takes the encoded frames off one by one and then stops
where decoding the trailing bytes stops. -/
private theorem decodeAll_encodings (c : FrameCodec) (fs : List Frame)
    (hflags : ∀ f ∈ fs, f.FlagsDefined)
    (hlen : ∀ f ∈ fs, f.payloadLen ≤ c.maxPayload.toNat) (t : Bytes)
    (ht : c.decode t = (.ok none, t)) :
    c.decodeAll (fs.flatMap encoding ++ t) =
      (fs.map Frame.normalize, .ok (), t) := by
  induction fs with
  | nil => exact decodeAll_none ht
  | cons f fs ih =>
      have hf := hlen f (by simp)
      have hmax := c.maxPayload.toNat_lt
      have hdec := decode_encoding c f (fs.flatMap encoding ++ t)
        (hflags f (by simp)) (by omega)
      rw [if_neg (by omega)] at hdec
      rw [List.flatMap_cons, List.append_assoc, decodeAll_some hdec,
        ih (fun g hg => hflags g (by simp [hg]))
          (fun g hg => hlen g (by simp [hg]))]
      rfl

/-- Decoding returns `none` only with the buffer untouched. -/
theorem decode_none_rest {c : FrameCodec} {src : Bytes}
    (h : (c.decode src).1 = .ok none) : c.decode src = (.ok none, src) := by
  unfold decode at h ⊢
  split
  · rfl
  · rename_i hlen
    rw [dif_neg hlen] at h
    split
    · simp_all
    · simp_all only
      split_ifs at h ⊢ <;> simp_all

/-- **Codec round trip over whole streams.**  Encoding a list of frames with
defined flags and payloads within the limit, appending bytes from which no
further frame can be decoded, and running the decode loop returns the list,
each `GoAway` code passed through its wire number, and leaves exactly the
appended bytes. -/
theorem decodeAll_encodeAll (m : UInt32) (frames : List Frame) (t : Bytes)
    (hflags : ∀ f ∈ frames, f.FlagsDefined)
    (hlen : ∀ f ∈ frames,
      f.payloadLen ≤ min m.toNat (16 * 1024 * 1024))
    (ht : ((new m).decode t).1 = .ok none) :
    (∃ buf, (new m).encodeAll frames [] = .ok buf ∧
      (new m).decodeAll (buf ++ t) =
        (frames.map Frame.normalize, .ok (), t)) ∧
    (∀ code : ErrorCode,
      (Frame.goAway code).normalize =
        .goAway (ErrorCode.ofU32 code.asU32)) ∧
    (∀ code : ErrorCode, ErrorCode.ofU32 code.asU32 = code ↔
      ¬ ∃ v : UInt32, code = .unknown v ∧ v.toNat < 7) := by
  have hmax : (new m).maxPayload.toNat = min m.toNat (16 * 1024 * 1024) :=
    new_maxPayload m
  rw [← hmax] at hlen
  refine ⟨⟨_, encodeAll_eq _ _ hlen [], ?_⟩, fun _ => rfl, ?_⟩
  · exact decodeAll_encodings _ frames hflags hlen t (decode_none_rest ht)
  · exact ErrorCode.ofU32_asU32

/-- The round trip at four frames, one of each kind, with four bytes of a
further header behind them. -/
theorem decodeAll_encodeAll_mixed :
    ∃ buf, (new 100).encodeAll
        [.data 7 ⟨3⟩ [104, 105], .windowUpdate 3 Flags.empty 65536,
          .ping Flags.ack 3405691582, .goAway (.unknown 3)] [] = .ok buf ∧
      (new 100).decodeAll (buf ++ [1, 0, 0, 0]) =
        ([.data 7 ⟨3⟩ [104, 105], .windowUpdate 3 Flags.empty 65536,
          .ping Flags.ack 3405691582, .goAway .flowControlError],
          .ok (), [1, 0, 0, 0]) :=
  (decodeAll_encodeAll 100
    [.data 7 ⟨3⟩ [104, 105], .windowUpdate 3 Flags.empty 65536,
      .ping Flags.ack 3405691582, .goAway (.unknown 3)] [1, 0, 0, 0]
    (by decide) (by decide) rfl).1

end FrameCodec

end NetMux
