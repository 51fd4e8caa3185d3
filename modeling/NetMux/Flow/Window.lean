import NetMux.Lib.Word

/-!
# Credit-based send and receive windows

Each operation is modelled as one call run without interference, so a
`compare_exchange_weak` succeeds on the value just loaded and a retry loop
runs once.  Wakers are not part of the state.
-/

namespace NetMux

open Lib.Word

/-- Result of attempting to acquire credit from a `SendWindow`. -/
inductive AcquireOutcome where
  | acquired (n : UInt32)
  | closed
  | pending
  deriving DecidableEq, Repr

/-- Outbound credit available to transmit on a stream. -/
structure SendWindow where
  available : UInt32
  closed : Bool
  deriving DecidableEq, Repr

namespace SendWindow

def new (initial : UInt32) : SendWindow := ⟨initial, false⟩

/-- Take up to `desired` bytes of credit, if there is any. -/
def tryTake (w : SendWindow) (desired : UInt32) :
    Option UInt32 × SendWindow :=
  if w.available = 0 then (none, w)
  else
    let take := min w.available desired
    (some take, { w with available := w.available - take })

/-- Attempt to consume up to `desired` bytes of credit: the fast path, then
the re-check that follows registering the waker. -/
def pollAcquire (w : SendWindow) (desired : UInt32) :
    AcquireOutcome × SendWindow :=
  if w.closed then (.closed, w)
  else
    match w.tryTake desired with
    | (some n, w') => (.acquired n, w')
    | (none, w') =>
      if w'.closed then (.closed, w')
      else
        match w'.tryTake desired with
        | (some n, w'') => (.acquired n, w'')
        | (none, w'') => (.pending, w'')

/-- Grant additional credit, saturating so that a hostile peer cannot wrap
the counter around. -/
def grant (w : SendWindow) (delta : UInt32) : SendWindow :=
  if delta = 0 then w
  else { w with available := saturatingAdd w.available delta }

/-- Close the window. -/
def close (w : SendWindow) : SendWindow := { w with closed := true }

/-- **What an acquisition does**: a closed window refuses, an empty one
waits, and otherwise the smaller of credit and demand is taken. -/
theorem pollAcquire_eq (w : SendWindow) (desired : UInt32) :
    w.pollAcquire desired =
      if w.closed then (.closed, w)
      else if w.available = 0 then (.pending, w)
      else (.acquired (min w.available desired),
        { w with available := w.available - min w.available desired }) := by
  unfold pollAcquire tryTake
  by_cases hc : w.closed = true
  · simp [hc]
  · by_cases ha : w.available = 0
    · simp [hc, ha]
    · simp [hc, ha]

/-- A grant adds to the credit, up to the largest word. -/
theorem toNat_grant (w : SendWindow) (delta : UInt32) :
    (w.grant delta).available.toNat =
      min (w.available.toNat + delta.toNat) (2 ^ 32 - 1) := by
  have hw := w.available.toNat_lt
  unfold grant
  split
  · rename_i h
    subst h
    simp only [UInt32.toNat_zero]
    omega
  · exact toNat_saturatingAdd _ _

@[simp] theorem grant_closed (w : SendWindow) (delta : UInt32) :
    (w.grant delta).closed = w.closed := by
  unfold grant
  split <;> rfl

@[simp] theorem close_available (w : SendWindow) :
    w.close.available = w.available := rfl

end SendWindow

/-- Inbound credit accounting for a stream. -/
structure RecvWindow where
  initial : UInt32
  pendingCredit : UInt32
  deriving DecidableEq, Repr

namespace RecvWindow

def new (initial : UInt32) : RecvWindow := ⟨initial, 0⟩

/-- Consumed bytes are returned to the peer once half the window has
accumulated. -/
def threshold (w : RecvWindow) : UInt32 := max (w.initial / 2) 1

/-- Record that the application consumed `bytes` bytes.  `fetch_add` wraps
while the value compared with the threshold saturates; when the two differ
the compare-exchange fails once and goes on with the stored value. -/
def onConsume (w : RecvWindow) (bytes : UInt32) :
    Option UInt32 × RecvWindow :=
  if bytes = 0 then (none, w)
  else
    let stored := w.pendingCredit + bytes
    let new := saturatingAdd w.pendingCredit bytes
    if w.threshold ≤ new then
      if stored = new then (some new, { w with pendingCredit := 0 })
      else if stored < w.threshold then
        (none, { w with pendingCredit := stored })
      else (some stored, { w with pendingCredit := 0 })
    else (none, { w with pendingCredit := stored })

theorem toNat_threshold (w : RecvWindow) :
    w.threshold.toNat = max (w.initial.toNat / 2) 1 := by
  rw [threshold, UInt32.toNat_max, UInt32.toNat_div]
  rfl

@[simp] theorem onConsume_initial (w : RecvWindow) (bytes : UInt32) :
    (w.onConsume bytes).2.initial = w.initial := by
  unfold onConsume
  dsimp only
  split_ifs <;> rfl

/-- The delta of an emitted update, zero when none is emitted. -/
def deltaOf : Option UInt32 → Nat
  | none => 0
  | some d => d.toNat

/-- **No credit is lost or made up**: below the word limit, what is returned
plus what stays pending is what was pending plus what was consumed. -/
theorem onConsume_conserves (w : RecvWindow) (bytes : UInt32)
    (h : w.pendingCredit.toNat + bytes.toNat < 2 ^ 32) :
    deltaOf (w.onConsume bytes).1 + (w.onConsume bytes).2.pendingCredit.toNat =
      w.pendingCredit.toNat + bytes.toNat := by
  have hsum := toNat_add_of_lt h
  unfold onConsume
  dsimp only
  split_ifs with h0 h1 h2 h3
  · subst h0
    simp [deltaOf]
  · simp only [deltaOf, saturatingAdd_eq_add h, hsum]
    simp
  · exact absurd (saturatingAdd_eq_add h).symm h2
  · exact absurd (saturatingAdd_eq_add h).symm h2
  · simp only [deltaOf, hsum]
    omega

/-- Pending credit stays below the threshold. -/
theorem onConsume_lt_threshold (w : RecvWindow) (bytes : UInt32)
    (h : w.pendingCredit.toNat < w.threshold.toNat) :
    (w.onConsume bytes).2.pendingCredit.toNat < w.threshold.toNat := by
  have hpos : 0 < w.threshold.toNat := by
    rw [toNat_threshold]
    omega
  unfold onConsume
  dsimp only
  split_ifs with h0 h1 h2 h3
  · exact h
  · exact hpos
  · exact UInt32.lt_iff_toNat_lt.mp h3
  · exact hpos
  · rw [UInt32.le_iff_toNat_le, toNat_saturatingAdd] at h1
    have hadd := UInt32.toNat_add w.pendingCredit bytes
    have hmod := Nat.mod_le (w.pendingCredit.toNat + bytes.toNat) (2 ^ 32)
    have hlt := w.threshold.toNat_lt
    simp only
    omega

end RecvWindow

end NetMux
