import Mathlib.Data.UInt

/-!
# Error values

The crate's error type, the wire-level error code carried by `GoAway`, and
the I/O errors surfaced by `poll_read` and `poll_write`.  Messages are kept
as the source writes them.
-/

namespace NetMux

/-- The I/O error kinds of the stream layer, and the one with which a framed
reader reports that the connection ended inside a frame. -/
inductive IoErrorKind where
  | connectionReset
  | brokenPipe
  | other
  deriving DecidableEq, Repr

/-- An I/O error: its kind and its message. -/
structure IoError where
  kind : IoErrorKind
  message : String
  deriving DecidableEq, Repr

/-- Wire-level error code, transmitted in `GoAway` frames as a `u32`. -/
inductive ErrorCode where
  | normal
  | protocolError
  | internalError
  | flowControlError
  | streamLimit
  | invalidVersion
  | timeout
  | unknown (v : UInt32)
  deriving DecidableEq, Repr

namespace ErrorCode

/-- Encode the variant as the raw `u32` carried on the wire. -/
def asU32 : ErrorCode → UInt32
  | normal => 0
  | protocolError => 1
  | internalError => 2
  | flowControlError => 3
  | streamLimit => 4
  | invalidVersion => 5
  | timeout => 6
  | unknown v => v

/-- Decode a raw `u32`; unrecognised codes are preserved. -/
def ofU32 (v : UInt32) : ErrorCode :=
  if v = 0 then normal
  else if v = 1 then protocolError
  else if v = 2 then internalError
  else if v = 3 then flowControlError
  else if v = 4 then streamLimit
  else if v = 5 then invalidVersion
  else if v = 6 then timeout
  else unknown v

@[simp] theorem asU32_ofU32 (v : UInt32) : (ofU32 v).asU32 = v := by
  unfold ofU32
  split_ifs <;> simp_all [asU32]

/-- A raw code decodes to `unknown` only from seven on. -/
theorem ofU32_eq_unknown (v : UInt32) :
    ofU32 v = unknown v ↔ 7 ≤ v.toNat := by
  unfold ofU32
  split_ifs <;> simp_all only [← UInt32.toNat_inj, reduceCtorEq, false_iff,
    true_iff, Nat.not_le, UInt32.reduceToNat] <;> omega

/-- **Decoding recovers every code** except an `unknown` whose number belongs
to a named one. -/
theorem ofU32_asU32 (c : ErrorCode) :
    ofU32 c.asU32 = c ↔ ¬ ∃ v : UInt32, c = unknown v ∧ v.toNat < 7 := by
  cases c with
  | unknown v =>
      rw [asU32, ofU32_eq_unknown]
      constructor
      · rintro hv ⟨w, hw, hlt⟩
        cases hw
        omega
      · intro hv
        apply Nat.le_of_not_lt
        intro hlt
        exact hv ⟨v, rfl, hlt⟩
  | _ => simp [asU32, ofU32]

end ErrorCode

/-- Top-level error type. -/
inductive Error where
  | sessionClosed
  | goAway (code : ErrorCode)
  | streamReset (id : UInt32)
  | tooManyStreams (limit : Nat)
  | timeout
  | protocol (message : String)
  | io (e : IoError)
  deriving DecidableEq, Repr

end NetMux
