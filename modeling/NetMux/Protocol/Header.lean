import Mathlib.Tactic.IntervalCases
import NetMux.Lib.BigEndian
import NetMux.Protocol.Frame

/-!
# 12-byte fixed frame header

Wire layout, all integers big-endian: version (1 byte), type (1 byte), flags
(2 bytes), stream id (4 bytes), length (4 bytes).
-/

namespace NetMux

open Lib.BigEndian

/-- Current protocol version. -/
def protocolVersion : UInt8 := 1

/-- Length of the wire header in bytes. -/
def headerLen : Nat := 12

/-- Frame type discriminator carried in the header. -/
inductive FrameType where
  | data
  | windowUpdate
  | ping
  | goAway
  deriving DecidableEq, Repr

namespace FrameType

def toU8 : FrameType → UInt8
  | data => 0
  | windowUpdate => 1
  | ping => 2
  | goAway => 3

def tryFrom (value : UInt8) : Except Error FrameType :=
  if value = 0 then .ok data
  else if value = 1 then .ok windowUpdate
  else if value = 2 then .ok ping
  else if value = 3 then .ok goAway
  else .error (.protocol "unknown frame type")

@[simp] theorem tryFrom_toU8 (t : FrameType) : tryFrom t.toU8 = .ok t := by
  cases t <;> rfl

theorem tryFrom_eq_ok {value : UInt8} {t : FrameType} :
    tryFrom value = .ok t ↔ value = t.toU8 := by
  unfold tryFrom
  cases t <;> split_ifs <;> simp_all [toU8]

theorem tryFrom_error {value : UInt8} {e : Error}
    (h : tryFrom value = .error e) : e = .protocol "unknown frame type" := by
  unfold tryFrom at h
  split_ifs at h
  cases h
  rfl

/-- The known type bytes are those up to three. -/
theorem tryFrom_known (value : UInt8) :
    (∃ t, tryFrom value = .ok t) ↔ value ≤ 3 := by
  constructor
  · rintro ⟨t, ht⟩
    rw [tryFrom_eq_ok.mp ht]
    cases t <;> decide
  · intro h
    have hv : value.toNat ≤ 3 := UInt8.le_iff_toNat_le.mp h
    unfold tryFrom
    split_ifs with h₀ h₁ h₂ h₃
    · exact ⟨_, rfl⟩
    · exact ⟨_, rfl⟩
    · exact ⟨_, rfl⟩
    · exact ⟨_, rfl⟩
    · simp only [← UInt8.toNat_inj, UInt8.reduceToNat] at h₀ h₁ h₂ h₃
      omega

end FrameType

/-- Decoded header fields. -/
structure Header where
  version : UInt8
  frameType : FrameType
  flags : Flags
  streamId : StreamId
  length : UInt32
  deriving DecidableEq, Repr

namespace Header

/-- The twelve header bytes. -/
def encode (h : Header) : Vector UInt8 12 :=
  let (f₀, f₁) := u16ToBe h.flags.bits
  let (s₀, s₁, s₂, s₃) := u32ToBe h.streamId
  let (l₀, l₁, l₂, l₃) := u32ToBe h.length
  #v[h.version, h.frameType.toU8, f₀, f₁, s₀, s₁, s₂, s₃, l₀, l₁, l₂, l₃]

/-- Read the header fields back, in the order the source checks them:
version, then type, then flag bits. -/
def decode (bytes : Vector UInt8 12) : Except Error Header :=
  let version := bytes[0]
  if version ≠ protocolVersion then
    .error (.protocol "unsupported protocol version")
  else
    match FrameType.tryFrom bytes[1] with
    | .error e => .error e
    | .ok frameType =>
      match Flags.fromBits (u16FromBe bytes[2] bytes[3]) with
      | none => .error (.protocol "unknown flag bits")
      | some flags =>
        .ok
          { version := version
            frameType := frameType
            flags := flags
            streamId := u32FromBe bytes[4] bytes[5] bytes[6] bytes[7]
            length := u32FromBe bytes[8] bytes[9] bytes[10] bytes[11] }

/-- **Header round trip.**  A header of this protocol version with defined
flags survives the wire. -/
theorem decode_encode (h : Header) (hv : h.version = protocolVersion)
    (hf : h.flags.Defined) : decode h.encode = .ok h := by
  obtain ⟨version, frameType, flags, streamId, length⟩ := h
  subst hv
  simp only [decode, encode, Vector.getElem_mk, List.getElem_toArray,
    List.getElem_cons_zero, List.getElem_cons_succ, ne_eq, not_true_eq_false,
    if_false, FrameType.tryFrom_toU8, u16FromBe_toBe, u32FromBe_toBe,
    Flags.fromBits_of_defined hf]

/-- A header with an undefined flag bit is refused. -/
theorem decode_undefined (h : Header) (hv : h.version = protocolVersion)
    (hf : ¬ h.flags.Defined) :
    decode h.encode = .error (.protocol "unknown flag bits") := by
  obtain ⟨version, frameType, flags, streamId, length⟩ := h
  subst hv
  have hbits : Flags.fromBits flags.bits = none := if_neg hf
  simp only [decode, encode, Vector.getElem_mk, List.getElem_toArray,
    List.getElem_cons_zero, List.getElem_cons_succ, ne_eq, not_true_eq_false,
    if_false, FrameType.tryFrom_toU8, u16FromBe_toBe, hbits]

/-- A header is refused with a protocol error. -/
theorem decode_error {bytes : Vector UInt8 12} {e : Error}
    (hd : decode bytes = .error e) : ∃ message, e = .protocol message := by
  unfold decode at hd
  by_cases hv : bytes[0] = protocolVersion
  · cases ht : FrameType.tryFrom bytes[1] with
    | error e' =>
        simp only [hv, ht, ne_eq, not_true_eq_false, if_false] at hd
        cases hd
        exact ⟨_, FrameType.tryFrom_error ht⟩
    | ok t =>
        cases hf : Flags.fromBits (u16FromBe bytes[2] bytes[3]) with
        | none =>
            simp only [hv, ht, hf, ne_eq, not_true_eq_false, if_false] at hd
            cases hd
            exact ⟨_, rfl⟩
        | some f => simp [hv, ht, hf] at hd
  · simp only [hv, ne_eq, not_false_eq_true, if_true] at hd
    cases hd
    exact ⟨_, rfl⟩

/-- **When a header decodes**, and to what. -/
theorem decode_eq_ok {bytes : Vector UInt8 12} {h : Header} :
    decode bytes = .ok h ↔
      bytes[0] = protocolVersion ∧
      FrameType.tryFrom bytes[1] = .ok h.frameType ∧
      Flags.fromBits (u16FromBe bytes[2] bytes[3]) = some h.flags ∧
      h = ⟨protocolVersion, h.frameType, h.flags,
        u32FromBe bytes[4] bytes[5] bytes[6] bytes[7],
        u32FromBe bytes[8] bytes[9] bytes[10] bytes[11]⟩ := by
  obtain ⟨version, frameType, flags, streamId, length⟩ := h
  unfold decode
  by_cases hv : bytes[0] = protocolVersion
  · cases ht : FrameType.tryFrom bytes[1] with
    | error e => simp [hv]
    | ok t =>
        cases hf : Flags.fromBits (u16FromBe bytes[2] bytes[3]) with
        | none => simp [hv]
        | some f =>
            simp only [hv, ne_eq, not_true_eq_false, if_false, Except.ok.injEq,
              Option.some.injEq, Header.mk.injEq, true_and]
            constructor
            · rintro ⟨rfl, rfl, rfl, rfl, rfl⟩
              simp
            · rintro ⟨rfl, rfl, rfl, rfl, rfl⟩
              simp
  · simp [hv]

/-- Encoding a decoded header gives back the bytes it was read from. -/
theorem encode_of_decode {bytes : Vector UInt8 12} {h : Header}
    (hd : decode bytes = .ok h) : h.encode = bytes := by
  obtain ⟨hv, ht, hf, hh⟩ := decode_eq_ok.mp hd
  have hbits := (Flags.fromBits_some hf).1
  rw [hh, encode]
  simp only [hbits, ← FrameType.tryFrom_eq_ok.mp ht, u16ToBe_fromBe,
    u32ToBe_fromBe, ← hv]
  apply Vector.ext
  intro i hi
  interval_cases i <;> rfl

/-- The headers that decode, by their first four bytes. -/
theorem decode_accepts (bytes : Vector UInt8 12) :
    (∃ h, decode bytes = .ok h) ↔
      bytes[0] = protocolVersion ∧ bytes[1] ≤ 3 ∧
        Flags.Defined ⟨u16FromBe bytes[2] bytes[3]⟩ := by
  rw [← FrameType.tryFrom_known]
  constructor
  · rintro ⟨h, hd⟩
    obtain ⟨hv, ht, hf, -⟩ := decode_eq_ok.mp hd
    obtain ⟨hbits, hdef⟩ := Flags.fromBits_some hf
    exact ⟨hv, ⟨_, ht⟩, hbits ▸ hdef⟩
  · rintro ⟨hv, ⟨t, ht⟩, hdef⟩
    exact ⟨⟨protocolVersion, t, ⟨u16FromBe bytes[2] bytes[3]⟩, _, _⟩,
      decode_eq_ok.mpr ⟨hv, ht, Flags.fromBits_of_defined hdef, rfl⟩⟩

end Header

end NetMux
