import Mathlib.Data.UInt

/-!
# Unsigned 32-bit arithmetic with saturation and overflow detection

`UInt32` addition wraps.  Programs that count bytes in a 32-bit word also
use two other sums: one that stops at the largest word and one that reports
overflow.  Both are defined here, each with the equation that reduces it to
arithmetic on `Nat`, which is where every accounting argument takes place.
-/

namespace NetMux.Lib.Word

/-- Addition that stops at the largest word. -/
def saturatingAdd (a b : UInt32) : UInt32 :=
  if a.toNat + b.toNat < 2 ^ 32 then a + b else UInt32.ofNat (2 ^ 32 - 1)

/-- Addition that reports overflow. -/
def checkedAdd (a b : UInt32) : Option UInt32 :=
  if a.toNat + b.toNat < 2 ^ 32 then some (a + b) else none

/-- The wrapping sum is the true sum when that fits a word. -/
theorem toNat_add_of_lt {a b : UInt32} (h : a.toNat + b.toNat < 2 ^ 32) :
    (a + b).toNat = a.toNat + b.toNat := by
  rw [UInt32.toNat_add, Nat.mod_eq_of_lt h]

/-- The saturating sum is the true sum cut off at the largest word. -/
theorem toNat_saturatingAdd (a b : UInt32) :
    (saturatingAdd a b).toNat = min (a.toNat + b.toNat) (2 ^ 32 - 1) := by
  unfold saturatingAdd
  split
  · rename_i h
    rw [toNat_add_of_lt h]
    omega
  · rename_i h
    rw [UInt32.toNat_ofNat']
    omega

/-- Saturation is invisible below the largest word. -/
theorem saturatingAdd_eq_add {a b : UInt32} (h : a.toNat + b.toNat < 2 ^ 32) :
    saturatingAdd a b = a + b := by
  rw [saturatingAdd, if_pos h]

@[simp] theorem saturatingAdd_zero (a : UInt32) : saturatingAdd a 0 = a := by
  have ha := a.toNat_lt
  rw [saturatingAdd_eq_add (by simpa using ha), UInt32.add_zero]

theorem toNat_checkedAdd {a b c : UInt32} (h : checkedAdd a b = some c) :
    c.toNat = a.toNat + b.toNat := by
  unfold checkedAdd at h
  split at h
  · rename_i hlt
    cases h
    exact toNat_add_of_lt hlt
  · cases h

theorem eq_zero_iff (a : UInt32) : a = 0 ↔ a.toNat = 0 := by
  rw [← UInt32.toNat_inj]
  rfl

end NetMux.Lib.Word
