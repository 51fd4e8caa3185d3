import NetMux.Lib.Incremental
import NetMux.Protocol.Codec

/-!
# Frames out of a connection that arrives in pieces

The reader's `FramedRead` appends whatever the connection delivers to a
buffer and calls `FrameCodec::decode` until it returns nothing or fails.  The
cuts between the pieces may fall anywhere, inside a header or a payload, and
the bytes need not be frames at all.  `decode` looks at the header before it
asks for the payload and takes nothing off the buffer before it has both, so
it is an incremental decoder and the cuts do not matter.
-/

namespace NetMux

open Lib.Incremental

namespace FrameCodec

variable (c : FrameCodec)

/-- A buffer that holds a header still holds the same one when more
arrives. -/
theorem headerBytes_more {src : Bytes} (more : Bytes)
    (h : ¬ src.length < headerLen) (h' : ¬ (src ++ more).length < headerLen) :
    headerBytes (src ++ more) h' = headerBytes src h := by
  apply Vector.toList_inj.mp
  simp only [headerBytes, Vector.toList_mk]
  rw [List.take_append_of_le_length]
  simp only [headerLen] at h
  omega

theorem decode_of_error {src : Bytes} {e : Error}
    (h : ¬ src.length < headerLen)
    (hh : Header.decode (headerBytes src h) = .error e) :
    c.decode src = (.error e, src) := by
  rw [decode, dif_neg h, hh]

theorem decode_of_header {src : Bytes} {header : Header}
    (h : ¬ src.length < headerLen)
    (hh : Header.decode (headerBytes src h) = .ok header) :
    c.decode src =
      if c.maxPayload < payloadLenOf header then
        (.error (.protocol "frame payload exceeds limit"), src)
      else if src.length < headerLen + (payloadLenOf header).toNat then
        (.ok none, src)
      else
        (.ok (some (frameOf header
            ((src.drop headerLen).take (payloadLenOf header).toNat))),
          (src.drop headerLen).drop (payloadLenOf header).toNat) := by
  rw [decode, dif_neg h, hh]

/-- **What `decode` does**: nothing, or fail, or take a header and its payload
off the buffer; and the last two whatever comes behind. -/
theorem decode_cases (src : Bytes) :
    c.decode src = (.ok none, src) ∨
    (∃ e, ∀ more, c.decode (src ++ more) = (.error e, src ++ more)) ∨
    ∃ f n, headerLen ≤ n ∧ n ≤ src.length ∧
      ∀ more, c.decode (src ++ more) = (.ok (some f), src.drop n ++ more) := by
  by_cases hlen : src.length < headerLen
  · exact .inl (by rw [decode, dif_pos hlen])
  have hlong : ∀ more, ¬ (src ++ more).length < headerLen := by
    intro more
    rw [List.length_append]
    omega
  cases hheader : Header.decode (headerBytes src hlen) with
  | error e =>
      refine .inr (.inl ⟨e, fun more => ?_⟩)
      exact c.decode_of_error (hlong more)
        (by rw [headerBytes_more more hlen, hheader])
  | ok header =>
      have hmore := fun more => c.decode_of_header (hlong more)
        ((congrArg _ (headerBytes_more more hlen _)).trans hheader)
      by_cases hmax : c.maxPayload < payloadLenOf header
      · exact .inr (.inl ⟨_, fun more => (hmore more).trans (if_pos hmax)⟩)
      by_cases hshort : src.length < headerLen + (payloadLenOf header).toNat
      · left
        rw [c.decode_of_header hlen hheader, if_neg hmax, if_pos hshort]
      refine .inr (.inr ⟨frameOf header
        ((src.drop headerLen).take (payloadLenOf header).toNat),
        headerLen + (payloadLenOf header).toNat, Nat.le_add_right _ _,
        Nat.not_lt.mp hshort, fun more => ?_⟩)
      -- header and payload are in the buffer already, so `more` is behind both
      have hpay : (payloadLenOf header).toNat ≤ (src.drop headerLen).length := by
        rw [List.length_drop]
        omega
      have hall : ¬ (src ++ more).length <
          headerLen + (payloadLenOf header).toNat := by
        rw [List.length_append]
        omega
      rw [hmore, if_neg hmax, if_neg hall,
        List.drop_append_of_le_length (by omega),
        List.take_append_of_le_length hpay,
        List.drop_append_of_le_length hpay, List.drop_drop]

variable {c} {src rest : Bytes} {f : Frame} {e : Error}

/-- A failure is one of every longer buffer, and takes nothing. -/
theorem decode_error_append (h : c.decode src = (.error e, rest))
    (more : Bytes) : c.decode (src ++ more) = (.error e, src ++ more) := by
  obtain hnone | ⟨e', herr⟩ | ⟨f, n, -, -, hsome⟩ := c.decode_cases src
  · exact nomatch hnone.symm.trans h
  · have hnil := herr []
    rw [List.append_nil, h] at hnil
    cases hnil
    exact herr more
  · have hnil := hsome []
    rw [List.append_nil, h] at hnil
    cases hnil

/-- So is a frame, which takes nothing of what was appended. -/
theorem decode_some_append (h : c.decode src = (.ok (some f), rest))
    (more : Bytes) : c.decode (src ++ more) = (.ok (some f), rest ++ more) := by
  obtain hnone | ⟨e', herr⟩ | ⟨g, n, -, -, hsome⟩ := c.decode_cases src
  · exact nomatch hnone.symm.trans h
  · have hnil := herr []
    rw [List.append_nil, h] at hnil
    cases hnil
  · have hnil := hsome []
    rw [List.append_nil, List.append_nil, h] at hnil
    cases hnil
    exact hsome more

/-- Whatever the codec refuses, it refuses with a protocol error. -/
theorem decode_error_protocol (h : c.decode src = (.error e, rest)) :
    ∃ message, e = .protocol message := by
  by_cases hlen : src.length < headerLen
  · rw [decode, dif_pos hlen] at h
    cases h
  cases hheader : Header.decode (headerBytes src hlen) with
  | error e' =>
      rw [c.decode_of_error hlen hheader] at h
      cases h
      exact Header.decode_error hheader
  | ok header =>
      rw [c.decode_of_header hlen hheader] at h
      split_ifs at h
      · cases h
        exact ⟨_, rfl⟩
      · cases h
      · cases h

theorem decode_error_rest (h : c.decode src = (.error e, rest)) :
    rest = src := by
  have hnil := decode_error_append h []
  rw [List.append_nil, h] at hnil
  exact congrArg Prod.snd hnil

variable (c)

/-- The codec is an incremental decoder. -/
def decoder : Decoder UInt8 Frame Error where
  decode := c.decode
  nil := rfl
  kept := fun h =>
    congrArg Prod.snd (h.symm.trans (decode_none_rest (congrArg Prod.fst h)))
  failed := decode_error_rest
  shrinks := fun h => by
    have hlen := decode_some_length c _ _ _ h
    unfold headerLen at hlen
    omega
  some_append := fun more h => decode_some_append h more
  error_append := fun more h => by rw [decode_error_append h more]

/-- The decode loop of the codec is the loop of the incremental decoder. -/
theorem decodeAll_eq_loop (src : Bytes) :
    c.decodeAll src = c.decoder.loop src := by
  fun_induction decodeAll c src with
  | case1 src e rest h => exact (Decoder.loop_error (d := c.decoder) h).symm
  | case2 src rest h => exact (Decoder.loop_none (d := c.decoder) h).symm
  | case3 src f rest h ih =>
      rw [Decoder.loop_some (d := c.decoder) h, ih]

/-- `FramedRead`: append the chunks one by one, and after each decode until
`decode` returns nothing or fails; the first failure is the last result. -/
def decodeChunks (chunks : List Bytes) : List Frame × Except Error Unit × Bytes :=
  c.decoder.feed chunks []

/-- **Decoding does not depend on how the bytes arrive.**  For every limit,
every byte string and every way of cutting it into chunks, feeding the chunks
one by one yields the frames of the whole string and ends with the same error
or the same bytes left undecoded.  A call of `decode` that returns nothing or
fails leaves the buffer as it is, one that returns a frame takes at least the
twelve bytes of a header off it, and so the decode loop ends after at most one
frame per twelve bytes. -/
theorem decodeChunks_eq_decodeAll (m : UInt32) :
    (∀ chunks : List Bytes,
      Yield.outcome ((new m).decodeChunks chunks) =
        Yield.outcome ((new m).decodeAll chunks.flatten)) ∧
    (∀ src : Bytes,
      (((new m).decode src).1 = .ok none ∨
          (∃ e, ((new m).decode src).1 = .error e) →
        ((new m).decode src).2 = src) ∧
      (∀ f, ((new m).decode src).1 = .ok (some f) →
        ((new m).decode src).2.length + 12 ≤ src.length) ∧
      ((new m).decodeAll src).1.length * 12 +
        ((new m).decodeAll src).2.2.length ≤ src.length) := by
  refine ⟨fun chunks => ?_, fun src => ⟨?_, fun f hf => ?_, ?_⟩⟩
  · rw [decodeAll_eq_loop]
    exact (new m).decoder.feed_eq_loop chunks [] (new m).decoder.nil
  · rintro (hnone | ⟨e, herr⟩)
    · exact (new m).decoder.kept (Prod.ext hnone rfl)
    · exact decode_error_rest (Prod.ext herr rfl)
  · exact decode_some_length (new m) src _ f (Prod.ext hf rfl)
  · rw [decodeAll_eq_loop]
    exact (new m).decoder.loop_length (decode_some_length (new m) _ _ _) src

end FrameCodec

end NetMux
