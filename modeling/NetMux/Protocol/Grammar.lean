import Mathlib.Data.List.Indexes
import NetMux.Protocol.Chunks

/-!
# The language of the decoder

Which byte strings `FrameCodec::decode` takes a frame off, which it refuses
and which it waits on, said of the bytes alone; and what it forgets of the
bytes it takes.  The grammar is the table of the wire format: a version byte,
a type byte, a flags word and a length word that counts payload bytes for
`Data` only.  The one direction (`decode_encoding`) says that what is encoded
is accepted; here is the other one, that what is accepted is an encoding, up
to the header fields a frame type has no use for.
-/

namespace NetMux

open Lib.BigEndian

namespace FrameCodec

/-! ## The header fields, on the bytes -/

/-- Byte `i` of a buffer. -/
def byteAt (b : Bytes) (i : Nat) : UInt8 := b.getD i 0

def versionByte (b : Bytes) : UInt8 := byteAt b 0

def typeByte (b : Bytes) : UInt8 := byteAt b 1

def flagsWord (b : Bytes) : UInt16 := u16FromBe (byteAt b 2) (byteAt b 3)

def lengthWord (b : Bytes) : UInt32 :=
  u32FromBe (byteAt b 8) (byteAt b 9) (byteAt b 10) (byteAt b 11)

/-- The version is this protocol's, the type is known and no flag bit outside
the low four is set. -/
def HeaderOk (b : Bytes) : Prop :=
  versionByte b = 1 ∧ typeByte b ≤ 3 ∧ (flagsWord b).toNat < 16

/-- A `Data` header announces at most the limit of the codec. -/
def WithinLimit (m : UInt32) (b : Bytes) : Prop :=
  typeByte b = 0 → (lengthWord b).toNat ≤ min m.toNat (16 * 1024 * 1024)

/-- The payload a `Data` header announces is there. -/
def Whole (b : Bytes) : Prop :=
  typeByte b = 0 → 12 + (lengthWord b).toNat ≤ b.length

/-- The header bytes that a frame of the given type does not keep: the stream
id of `Ping` and `GoAway`, and the flags of `GoAway`. -/
def ignored (type : UInt8) (i : Nat) : Bool :=
  (type == 2 || type == 3) && decide (4 ≤ i ∧ i < 8) ||
    type == 3 && decide (2 ≤ i ∧ i < 4)

/-- The bytes of a frame with the ignored ones set to zero. -/
def zeroIgnored (b : Bytes) : Bytes :=
  b.mapIdx fun i x => if ignored (typeByte b) i then 0 else x

/-! ## The header on the bytes is the header decoded -/

section

variable {m : UInt32} {b : Bytes} (hlen : ¬ b.length < headerLen)

private theorem headerBytes_get (i : Nat) (hi : i < 12) :
    (headerBytes b hlen)[i] = byteAt b i := by
  simp only [headerLen] at hlen
  have hb : i < b.length := by omega
  simp [headerBytes, byteAt, hb]

theorem headerOk_iff :
    HeaderOk b ↔ ∃ h, Header.decode (headerBytes b hlen) = .ok h := by
  rw [Header.decode_accepts, Flags.defined_iff]
  simp only [headerBytes_get]
  rfl

variable {hlen} {h : Header}
  (hh : Header.decode (headerBytes b hlen) = .ok h)

include hh

private theorem typeByte_eq : typeByte b = h.frameType.toU8 := by
  obtain ⟨-, ht, -⟩ := Header.decode_eq_ok.mp hh
  rw [headerBytes_get] at ht
  exact FrameType.tryFrom_eq_ok.mp ht

private theorem lengthWord_eq : lengthWord b = h.length := by
  obtain ⟨-, -, -, hfields⟩ := Header.decode_eq_ok.mp hh
  rw [hfields]
  simp only [headerBytes_get]
  rfl

/-- The payload a header asks for, on the bytes. -/
private theorem payloadLenOf_eq :
    (payloadLenOf h).toNat =
      if typeByte b = 0 then (lengthWord b).toNat else 0 := by
  rw [typeByte_eq hh, lengthWord_eq hh, payloadLenOf]
  cases h.frameType <;> rfl

private theorem withinLimit_iff :
    WithinLimit m b ↔ ¬ (new m).maxPayload < payloadLenOf h := by
  rw [UInt32.lt_iff_toNat_lt, new_maxPayload, payloadLenOf_eq hh]
  unfold WithinLimit
  have hmax : absoluteMaxPayload.toNat = 16 * 1024 * 1024 := rfl
  split <;> simp_all

private theorem whole_iff :
    Whole b ↔ ¬ b.length < headerLen + (payloadLenOf h).toNat := by
  rw [payloadLenOf_eq hh]
  unfold Whole headerLen
  simp only [headerLen] at hlen
  split <;> simp_all

end

/-! ## What decode does, by the grammar -/

/-- **The four outcomes of `decode`.** -/
theorem decode_outcome (m : UInt32) (b : Bytes) :
    (b.length < 12 ∧ (new m).decode b = (.ok none, b)) ∨
    (12 ≤ b.length ∧ ¬ (HeaderOk b ∧ WithinLimit m b) ∧
      ∃ e, (new m).decode b = (.error e, b)) ∨
    (12 ≤ b.length ∧ HeaderOk b ∧ WithinLimit m b ∧ ¬ Whole b ∧
      (new m).decode b = (.ok none, b)) ∨
    (12 ≤ b.length ∧ HeaderOk b ∧ WithinLimit m b ∧ Whole b ∧
      ∃ f rest, (new m).decode b = (.ok (some f), rest)) := by
  by_cases hlen : b.length < headerLen
  · exact .inl ⟨hlen, by rw [decode, dif_pos hlen]⟩
  have h12 : 12 ≤ b.length := Nat.not_lt.mp hlen
  cases hh : Header.decode (headerBytes b hlen) with
  | error e =>
      have hbad : ¬ HeaderOk b := by
        rw [headerOk_iff hlen, hh]
        rintro ⟨h, hd⟩
        cases hd
      exact .inr (.inl ⟨h12, fun hok => hbad hok.1, e,
        (new m).decode_of_error hlen hh⟩)
  | ok h =>
      have hok : HeaderOk b := (headerOk_iff hlen).mpr ⟨h, hh⟩
      have hdec := (new m).decode_of_header hlen hh
      by_cases hmax : (new m).maxPayload < payloadLenOf h
      · refine .inr (.inl ⟨h12, fun hb => ?_, _, hdec.trans (if_pos hmax)⟩)
        exact (withinLimit_iff hh).mp hb.2 hmax
      have hwithin := (withinLimit_iff hh).mpr hmax
      rw [if_neg hmax] at hdec
      by_cases hshort : b.length < headerLen + (payloadLenOf h).toNat
      · refine .inr (.inr (.inl ⟨h12, hok, hwithin, fun hw => ?_,
          hdec.trans (if_pos hshort)⟩))
        exact (whole_iff hh).mp hw hshort
      · exact .inr (.inr (.inr ⟨h12, hok, hwithin, (whole_iff hh).mpr hshort,
          _, _, hdec.trans (if_neg hshort)⟩))

/-! ## Encoding what was decoded -/

/-- What a frame keeps of its header. -/
def kept (h : Header) : Header :=
  match h.frameType with
  | .data | .windowUpdate => h
  | .ping => { h with streamId := 0 }
  | .goAway => { h with streamId := 0, flags := Flags.empty }

/-- Encoding the frame of a header writes the header without the fields the
frame does not keep. -/
theorem encoding_frameOf {h : Header} {payload : Bytes}
    (hv : h.version = protocolVersion)
    (hp : payload.length = (payloadLenOf h).toNat) :
    encoding (frameOf h payload) = (kept h).encode.toList ++ payload := by
  obtain ⟨version, type, flags, streamId, length⟩ := h
  subst hv
  cases type with
  | data =>
      have hlen : UInt32.ofNat payload.length = length := by
        rw [hp]
        exact UInt32.ofNat_toNat
      simp only [encoding, frameOf, parts, kept, hlen]
  | windowUpdate =>
      have hnil : payload = [] := List.length_eq_zero_iff.mp hp
      rw [hnil]
      rfl
  | ping =>
      have hnil : payload = [] := List.length_eq_zero_iff.mp hp
      rw [hnil]
      rfl
  | goAway =>
      have hnil : payload = [] := List.length_eq_zero_iff.mp hp
      simp only [encoding, frameOf, parts, kept, hnil, ErrorCode.asU32_ofU32]

private theorem mapIdx_self (b : Bytes) : b.mapIdx (fun _ x => x) = b := by
  apply List.ext_getElem <;> simp

/-- Dropping those fields is setting their bytes to zero. -/
theorem zeroIgnored_encode {h : Header} {payload : Bytes}
    (hp : payload.length = (payloadLenOf h).toNat) :
    zeroIgnored (h.encode.toList ++ payload) =
      (kept h).encode.toList ++ payload := by
  obtain ⟨version, type, flags, streamId, length⟩ := h
  have htype : typeByte ((Header.encode
      ⟨version, type, flags, streamId, length⟩).toList ++ payload) =
      type.toU8 := by
    simp [typeByte, byteAt, Header.encode]
  have h32 : u32ToBe 0 = (0, 0, 0, 0) := rfl
  have h16 : u16ToBe 0 = (0, 0) := rfl
  rw [zeroIgnored, htype]
  cases type with
  | data => simp [ignored, FrameType.toU8, kept, mapIdx_self]
  | windowUpdate => simp [ignored, FrameType.toU8, kept, mapIdx_self]
  | ping =>
      have hnil : payload = [] := List.length_eq_zero_iff.mp hp
      simp [hnil, ignored, FrameType.toU8, kept, Header.encode, h32]
  | goAway =>
      have hnil : payload = [] := List.length_eq_zero_iff.mp hp
      simp [hnil, ignored, FrameType.toU8, kept, Header.encode, Flags.empty,
        h32, h16]

private theorem payloadLen_frameOf (h : Header) (payload : Bytes) :
    (frameOf h payload).payloadLen ≤ payload.length := by
  unfold frameOf
  cases h.frameType <;> simp [Frame.payloadLen]

/-- **Decoding forgets only the ignored bytes.**  The frame taken off a buffer
encodes, with the same codec, to the bytes it was taken from with the ignored
ones zero. -/
theorem encode_of_decode {m : UInt32} {b rest : Bytes} {f : Frame}
    (hd : (new m).decode b = (.ok (some f), rest)) :
    ∃ consumed, b = consumed ++ rest ∧
      (new m).encode f [] = .ok (zeroIgnored consumed) := by
  obtain ⟨-, hd'⟩ | ⟨-, -, e, hd'⟩ | ⟨-, -, -, -, hd'⟩ |
    ⟨h12, hok, hin, hw, -⟩ := decode_outcome m b
  · cases hd'.symm.trans hd
  · cases hd'.symm.trans hd
  · cases hd'.symm.trans hd
  have hlen : ¬ b.length < headerLen := Nat.not_lt.mpr h12
  obtain ⟨h, hh⟩ := (headerOk_iff hlen).mp hok
  have hmax := (withinLimit_iff hh).mp hin
  have hall := (whole_iff hh).mp hw
  rw [decode_of_header _ hlen hh, if_neg hmax, if_neg hall] at hd
  cases hd
  have hp : ((b.drop headerLen).take (payloadLenOf h).toNat).length =
      (payloadLenOf h).toNat := by
    rw [List.length_take, List.length_drop]
    omega
  have hbytes : h.encode.toList = b.take headerLen := by
    rw [Header.encode_of_decode hh, headerBytes, Vector.toList_mk]
    rfl
  have hv : h.version = protocolVersion := by
    rw [(Header.decode_eq_ok.mp hh).2.2.2]
  have hfits : ¬ (new m).maxPayload.toNat <
      (frameOf h ((b.drop headerLen).take (payloadLenOf h).toNat)).payloadLen := by
    have hle := payloadLen_frameOf h
      ((b.drop headerLen).take (payloadLenOf h).toNat)
    rw [hp] at hle
    rw [UInt32.lt_iff_toNat_lt] at hmax
    omega
  refine ⟨b.take headerLen ++
    (b.drop headerLen).take (payloadLenOf h).toNat, ?_, ?_⟩
  · rw [List.append_assoc, List.take_append_drop, List.take_append_drop]
  · rw [encode_eq, if_neg hfits, encoding_frameOf hv hp, List.nil_append,
      ← hbytes, zeroIgnored_encode hp]

/-- **`decode` accepts exactly its grammar and forgets only the ignored
fields.** -/
theorem decode_grammar (m : UInt32) (b : Bytes) :
    ((∃ f, ((new m).decode b).1 = .ok (some f)) ↔
      12 ≤ b.length ∧ HeaderOk b ∧ WithinLimit m b ∧ Whole b) ∧
    ((∃ e, ((new m).decode b).1 = .error e) ↔
      12 ≤ b.length ∧ (¬ HeaderOk b ∨ ¬ WithinLimit m b)) ∧
    (((new m).decode b).1 = .ok none ↔
      ¬ (12 ≤ b.length ∧ HeaderOk b ∧ WithinLimit m b ∧ Whole b) ∧
      ¬ (12 ≤ b.length ∧ (¬ HeaderOk b ∨ ¬ WithinLimit m b))) ∧
    (∀ f rest, (new m).decode b = (.ok (some f), rest) →
      ∃ consumed, b = consumed ++ rest ∧
        (new m).encode f [] = .ok (zeroIgnored consumed)) := by
  refine ⟨?_, ?_, ?_, fun f rest hd => encode_of_decode hd⟩ <;>
    obtain ⟨h12, hd⟩ | ⟨h12, hbad, e, hd⟩ | ⟨h12, hok, hin, hw, hd⟩ |
      ⟨h12, hok, hin, hw, f, rest, hd⟩ := decode_outcome m b <;>
    rw [hd] <;> grind

end FrameCodec

end NetMux
