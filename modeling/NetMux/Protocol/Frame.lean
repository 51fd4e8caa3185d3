import NetMux.Error
import NetMux.Util.Id

/-!
# Strongly-typed in-memory frame representation

`Flags` is the raw `u16` of the header with the four defined bits; a value
read off the wire passes `fromBits`, which refuses any other bit.
-/

namespace NetMux

/-- A byte string. -/
abbrev Bytes := List UInt8

/-- Bit flags carried in the header `flags` field. -/
structure Flags where
  bits : UInt16
  deriving DecidableEq, Repr

namespace Flags

def empty : Flags := ⟨0⟩
/-- New stream is being opened. -/
def syn : Flags := ⟨1⟩
/-- Acknowledgement of a SYN. -/
def ack : Flags := ⟨2⟩
/-- Sender will not transmit any more data on this stream. -/
def fin : Flags := ⟨4⟩
/-- Stream is being abruptly reset. -/
def rst : Flags := ⟨8⟩

/-- Whether every bit of `other` is set. -/
def contains (f other : Flags) : Bool := f.bits &&& other.bits == other.bits

/-- The bits of no defined flag. -/
def undefinedBits : UInt16 := 0xFFF0

/-- The flags of a raw word, or `none` when an undefined bit is set. -/
def fromBits (bits : UInt16) : Option Flags :=
  if bits &&& undefinedBits = 0 then some ⟨bits⟩ else none

/-- Only the four defined bits are used. -/
def Defined (f : Flags) : Prop := f.bits &&& undefinedBits = 0

instance (f : Flags) : Decidable f.Defined := by
  unfold Defined
  infer_instance

/-- The defined bits are the low four. -/
theorem defined_iff (f : Flags) : f.Defined ↔ f.bits.toNat < 16 := by
  have hbits := f.bits.toNat_lt
  have hhigh : (f.bits.toNat &&& 0xFFF0) / 2 ^ 4 =
      f.bits.toNat / 2 ^ 4 % 2 ^ 12 := by
    rw [Nat.and_div_two_pow, ← Nat.and_two_pow_sub_one_eq_mod]
  have hlow : (f.bits.toNat &&& 0xFFF0) % 2 ^ 4 = 0 := by
    rw [Nat.and_mod_two_pow]
    simp
  rw [Defined, undefinedBits, ← UInt16.toNat_inj, UInt16.toNat_and]
  simp only [UInt16.reduceToNat]
  omega

theorem fromBits_of_defined {f : Flags} (h : f.Defined) :
    fromBits f.bits = some f := by
  unfold Defined at h
  rw [fromBits, if_pos h]

theorem fromBits_some {b : UInt16} {f : Flags} (h : fromBits b = some f) :
    f.bits = b ∧ f.Defined := by
  unfold fromBits at h
  split at h
  · rename_i hb
    cases h
    exact ⟨rfl, hb⟩
  · cases h

end Flags

/-- In-memory representation of a single wire frame. -/
inductive Frame where
  | data (streamId : StreamId) (flags : Flags) (payload : Bytes)
  | windowUpdate (streamId : StreamId) (flags : Flags) (delta : UInt32)
  | ping (flags : Flags) (nonce : UInt32)
  | goAway (errorCode : ErrorCode)
  deriving DecidableEq, Repr

namespace Frame

def syn (id : StreamId) : Frame := data id Flags.syn []
def ack (id : StreamId) : Frame := data id Flags.ack []
def fin (id : StreamId) : Frame := data id Flags.fin []
def rst (id : StreamId) : Frame := data id Flags.rst []

/-- A plain credit increment. -/
def mkWindowUpdate (id : StreamId) (delta : UInt32) : Frame :=
  windowUpdate id Flags.empty delta

/-- A liveness probe. -/
def mkPing (nonce : UInt32) : Frame := ping Flags.empty nonce

/-- The reply to a liveness probe. -/
def pong (nonce : UInt32) : Frame := ping Flags.ack nonce

/-- The stream a frame belongs to; session-scoped frames have none. -/
def streamId? : Frame → Option StreamId
  | data id _ _ => some id
  | windowUpdate id _ _ => some id
  | ping _ _ => none
  | goAway _ => none

/-- Flags use only the four defined bits.  `GoAway` carries no flags. -/
def FlagsDefined : Frame → Prop
  | data _ f _ => f.Defined
  | windowUpdate _ f _ => f.Defined
  | ping f _ => f.Defined
  | goAway _ => True

instance (f : Frame) : Decidable f.FlagsDefined :=
  match f with
  | data _ f _ => inferInstanceAs (Decidable f.Defined)
  | windowUpdate _ f _ => inferInstanceAs (Decidable f.Defined)
  | ping f _ => inferInstanceAs (Decidable f.Defined)
  | goAway _ => inferInstanceAs (Decidable True)

/-- Number of payload bytes a frame carries. -/
def payloadLen : Frame → Nat
  | data _ _ p => p.length
  | _ => 0

/-- What a receiver sees of a frame: an error code is passed through its
wire number. -/
def normalize : Frame → Frame
  | goAway c => goAway (ErrorCode.ofU32 c.asU32)
  | f => f

end Frame

end NetMux
