import Mathlib.Data.UInt

/-!
# Big-endian byte encodings of fixed-width words

The four conversions a wire format needs, written as digit arithmetic on
`Nat`, together with both inverse laws for each width.
-/

namespace NetMux.Lib.BigEndian

/-- The two bytes of a 16-bit word, most significant first. -/
def u16ToBe (x : UInt16) : UInt8 × UInt8 :=
  (UInt8.ofNat (x.toNat / 2 ^ 8), UInt8.ofNat x.toNat)

/-- The 16-bit word with the given bytes, most significant first. -/
def u16FromBe (b₀ b₁ : UInt8) : UInt16 :=
  UInt16.ofNat (b₀.toNat * 2 ^ 8 + b₁.toNat)

/-- The four bytes of a 32-bit word, most significant first. -/
def u32ToBe (x : UInt32) : UInt8 × UInt8 × UInt8 × UInt8 :=
  (UInt8.ofNat (x.toNat / 2 ^ 24), UInt8.ofNat (x.toNat / 2 ^ 16),
    UInt8.ofNat (x.toNat / 2 ^ 8), UInt8.ofNat x.toNat)

/-- The 32-bit word with the given bytes, most significant first. -/
def u32FromBe (b₀ b₁ b₂ b₃ : UInt8) : UInt32 :=
  UInt32.ofNat
    (b₀.toNat * 2 ^ 24 + b₁.toNat * 2 ^ 16 + b₂.toNat * 2 ^ 8 + b₃.toNat)

@[simp] theorem u16FromBe_toBe (x : UInt16) :
    u16FromBe (u16ToBe x).1 (u16ToBe x).2 = x := by
  have hx := x.toNat_lt
  rw [← UInt16.toNat_inj]
  simp only [u16FromBe, u16ToBe, UInt16.toNat_ofNat', UInt8.toNat_ofNat']
  omega

@[simp] theorem u32FromBe_toBe (x : UInt32) :
    u32FromBe (u32ToBe x).1 (u32ToBe x).2.1 (u32ToBe x).2.2.1
      (u32ToBe x).2.2.2 = x := by
  have hx := x.toNat_lt
  rw [← UInt32.toNat_inj]
  simp only [u32FromBe, u32ToBe, UInt32.toNat_ofNat', UInt8.toNat_ofNat']
  omega

@[simp] theorem u16ToBe_fromBe (b₀ b₁ : UInt8) :
    u16ToBe (u16FromBe b₀ b₁) = (b₀, b₁) := by
  have h₀ := b₀.toNat_lt
  have h₁ := b₁.toNat_lt
  simp only [u16ToBe, u16FromBe, Prod.mk.injEq, ← UInt8.toNat_inj,
    UInt16.toNat_ofNat', UInt8.toNat_ofNat']
  omega

@[simp] theorem u32ToBe_fromBe (b₀ b₁ b₂ b₃ : UInt8) :
    u32ToBe (u32FromBe b₀ b₁ b₂ b₃) = (b₀, b₁, b₂, b₃) := by
  have h₀ := b₀.toNat_lt
  have h₁ := b₁.toNat_lt
  have h₂ := b₂.toNat_lt
  have h₃ := b₃.toNat_lt
  simp only [u32ToBe, u32FromBe, Prod.mk.injEq, ← UInt8.toNat_inj,
    UInt32.toNat_ofNat', UInt8.toNat_ofNat']
  omega

end NetMux.Lib.BigEndian
