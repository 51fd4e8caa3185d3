import Mathlib.Data.UInt

/-!
# Session configuration

`Config` keeps the parameters the modelled code reads.  The two timeouts are
left out: how long a timer runs is not modelled, only that it may fire.
`ConfigBuilder` clamps every size to at least one, and `Config.Built` says
which configurations its setters can produce.
-/

namespace NetMux

/-- Tunable parameters for a session. -/
structure Config where
  initialStreamWindow : UInt32
  maxFrameSize : UInt32
  maxStreams : Nat
  keepaliveInterval : Option Nat
  deriving DecidableEq, Repr

namespace Config

/-- The default configuration: 256 KiB windows, 64 KiB frames, 1024 streams
and a keepalive every 30 seconds. -/
def default : Config where
  initialStreamWindow := 256 * 1024
  maxFrameSize := 64 * 1024
  maxStreams := 1024
  keepaliveInterval := some 30

end Config

/-- Fluent builder for `Config`. -/
structure ConfigBuilder where
  inner : Config

namespace ConfigBuilder

/-- Start a new builder using the default configuration. -/
def new : ConfigBuilder := ⟨Config.default⟩

/-- Override the initial per-stream window (bytes). -/
def initialStreamWindow (b : ConfigBuilder) (bytes : UInt32) : ConfigBuilder :=
  ⟨{ b.inner with initialStreamWindow := max bytes 1 }⟩

/-- Override the maximum single-frame payload (bytes). -/
def maxFrameSize (b : ConfigBuilder) (bytes : UInt32) : ConfigBuilder :=
  ⟨{ b.inner with maxFrameSize := max bytes 1 }⟩

/-- Override the maximum number of concurrent streams. -/
def maxStreams (b : ConfigBuilder) (n : Nat) : ConfigBuilder :=
  ⟨{ b.inner with maxStreams := max n 1 }⟩

/-- Override the keepalive interval. -/
def keepaliveInterval (b : ConfigBuilder) (every : Option Nat) :
    ConfigBuilder :=
  ⟨{ b.inner with keepaliveInterval := every }⟩

/-- Finalize and return the constructed `Config`. -/
def build (b : ConfigBuilder) : Config := b.inner

/-- The builders reachable from `new` by any sequence of setters. -/
inductive Chain : ConfigBuilder → Prop where
  | new : Chain ConfigBuilder.new
  | initialStreamWindow {b} (h : Chain b) (bytes : UInt32) :
      Chain (b.initialStreamWindow bytes)
  | maxFrameSize {b} (h : Chain b) (bytes : UInt32) :
      Chain (b.maxFrameSize bytes)
  | maxStreams {b} (h : Chain b) (n : Nat) : Chain (b.maxStreams n)
  | keepaliveInterval {b} (h : Chain b) (every : Option Nat) :
      Chain (b.keepaliveInterval every)

end ConfigBuilder

namespace Config

/-- A configuration that some chain of builder calls produces. -/
def Built (c : Config) : Prop := ∃ b, ConfigBuilder.Chain b ∧ b.build = c

private theorem one_le_max (x : UInt32) : 1 ≤ (max x 1).toNat := by
  rw [UInt32.toNat_max]
  exact Nat.le_max_right _ _

private theorem max_one_of_pos {x : UInt32} (h : 1 ≤ x.toNat) :
    max x 1 = x := by
  rw [← UInt32.toNat_inj, UInt32.toNat_max]
  exact Nat.max_eq_left h

/-- **The builder produces exactly the configurations with positive sizes.** -/
theorem built_iff (c : Config) :
    c.Built ↔ 1 ≤ c.initialStreamWindow.toNat ∧ 1 ≤ c.maxFrameSize.toNat ∧
      1 ≤ c.maxStreams := by
  constructor
  · rintro ⟨b, hb, rfl⟩
    induction hb with
    | new => exact ⟨by decide, by decide, by decide⟩
    | initialStreamWindow _ bytes ih => exact ⟨one_le_max bytes, ih.2⟩
    | maxFrameSize _ bytes ih => exact ⟨ih.1, one_le_max bytes, ih.2.2⟩
    | maxStreams _ n ih => exact ⟨ih.1, ih.2.1, Nat.le_max_right n 1⟩
    | keepaliveInterval _ every ih => exact ih
  · rintro ⟨hw, hf, hs⟩
    refine ⟨(((ConfigBuilder.new.initialStreamWindow
      c.initialStreamWindow).maxFrameSize c.maxFrameSize).maxStreams
      c.maxStreams).keepaliveInterval c.keepaliveInterval, ?_, ?_⟩
    · exact (((ConfigBuilder.Chain.new.initialStreamWindow _).maxFrameSize
        _).maxStreams _).keepaliveInterval _
    · simp only [ConfigBuilder.build, ConfigBuilder.keepaliveInterval,
        ConfigBuilder.maxStreams, ConfigBuilder.maxFrameSize,
        ConfigBuilder.initialStreamWindow, max_one_of_pos hw,
        max_one_of_pos hf, Nat.max_eq_left hs]

end Config

end NetMux
