import NetMux.Concurrent.Atomic
import NetMux.Lib.Interleave

/-!
# The limit on concurrent streams

`open()` and the reader compare the size of the registry with `max_streams`
and insert later, in a step of its own.  A task that has passed its check and
not yet inserted has *booked* an entry.  The registry stays within the limit
when every check that passes leaves room for the entries booked already; a
check that does not is how the limit is exceeded.
-/

namespace NetMux

open Lib.Run

/-- Entries a call of `open()` has booked: it has passed the limit check and
will insert. -/
def OpenPc.booked : OpenPc → Nat
  | .allocate => 1
  | .insert _ => 1
  | _ => 0

/-- Entries the reader has booked. -/
def SynPc.booked : SynPc → Nat
  | .insert _ => 1
  | _ => 0

namespace Session

/-- **What a step of `open()` does to the registry**: it turns a booking into
an entry, gives one up, or makes one by passing the limit check. -/
theorem advanceOpen_books (s : Session) (pc : OpenPc) :
    (s.advanceOpen pc).1.config = s.config ∧
      ((s.advanceOpen pc).1.registry.len + (s.advanceOpen pc).2.booked ≤
          s.registry.len + pc.booked ∨
        (pc = .limitCheck ∧ s.registry.len < s.config.maxStreams ∧
          s.advanceOpen pc = (s, .allocate))) := by
  cases pc with
  | closedCheck =>
      refine ⟨rfl, .inl ?_⟩
      simp only [advanceOpen]
      split <;> exact Nat.le_refl _
  | goneCheck =>
      refine ⟨rfl, .inl ?_⟩
      simp only [advanceOpen]
      split <;> exact Nat.le_refl _
  | limitCheck =>
      refine ⟨rfl, ?_⟩
      simp only [advanceOpen]
      split
      · exact .inl (Nat.le_refl _)
      · exact .inr ⟨trivial, by omega, rfl⟩
  | allocate =>
      simp only [advanceOpen]
      split
      · exact ⟨rfl, .inl (Nat.le_succ _)⟩
      · exact ⟨rfl, .inl (Nat.le_refl _)⟩
  | insert id =>
      simp only [advanceOpen]
      split
      · exact ⟨rfl, .inl (Nat.le_succ _)⟩
      · rename_i hins
        refine ⟨rfl, .inl ?_⟩
        rw [StreamRegistry.len_insert hins]
        exact Nat.le_refl _
  | send id h =>
      simp only [advanceOpen]
      split <;> exact ⟨rfl, .inl (Nat.le_refl _)⟩
  | wait id h =>
      simp only [advanceOpen]
      repeat' split
      all_goals exact ⟨rfl, .inl (Nat.le_refl _)⟩
  | remove id h e =>
      exact ⟨rfl, .inl (StreamRegistry.len_remove_le _ _)⟩
  | done result => exact ⟨rfl, .inl (Nat.le_refl _)⟩

theorem openTimer_books (s : Session) (pc : OpenPc) :
    (s.openTimer pc).1.config = s.config ∧
      (s.openTimer pc).1.registry.len + (s.openTimer pc).2.booked ≤
        s.registry.len + pc.booked := by
  cases pc with
  | wait id h =>
      simp only [openTimer]
      split
      · exact ⟨rfl, Nat.le_refl _⟩
      · split
        · exact ⟨rfl, Nat.le_refl _⟩
        · obtain ⟨hcfg, hle | ⟨hpc, -⟩⟩ := s.advanceOpen_books (.wait id h)
          · exact ⟨hcfg, hle⟩
          · cases hpc
  | _ => exact ⟨rfl, Nat.le_refl _⟩

theorem advanceSyn_books (s : Session) (pc : SynPc) :
    (s.advanceSyn pc).1.config = s.config ∧
      ((s.advanceSyn pc).1.registry.len + (s.advanceSyn pc).2.booked ≤
          s.registry.len + pc.booked ∨
        ∃ id, pc = .limitCheck id ∧ s.registry.len < s.config.maxStreams ∧
          s.advanceSyn pc = (s, .insert id)) := by
  cases pc with
  | idle => exact ⟨rfl, .inl (Nat.le_refl _)⟩
  | goneCheck id =>
      refine ⟨rfl, .inl ?_⟩
      simp only [advanceSyn]
      split <;> exact Nat.le_refl _
  | limitCheck id =>
      refine ⟨rfl, ?_⟩
      simp only [advanceSyn]
      split
      · exact .inl (Nat.le_refl _)
      · exact .inr ⟨id, rfl, by omega, rfl⟩
  | insert id =>
      simp only [advanceSyn]
      split
      · exact ⟨rfl, .inl (Nat.le_succ _)⟩
      · rename_i hins
        refine ⟨rfl, .inl ?_⟩
        rw [StreamRegistry.len_insert hins]
        exact Nat.le_refl _
  | offer id h =>
      simp only [advanceSyn]
      split <;> exact ⟨rfl, .inl (Nat.le_refl _)⟩
  | withdraw id h =>
      exact ⟨rfl, .inl (StreamRegistry.len_remove_le _ _)⟩
  | refuse id => exact ⟨rfl, .inl (Nat.le_refl _)⟩

/-- A shutdown only removes. -/
theorem advanceShutdown_books (s : Session) (pc : ShutdownPc) :
    (s.advanceShutdown pc).1.config = s.config ∧
      (s.advanceShutdown pc).1.registry.len ≤ s.registry.len := by
  cases pc with
  | drain => exact ⟨rfl, Nat.zero_le _⟩
  | close rest =>
      cases rest with
      | nil => exact ⟨rfl, Nat.le_refl _⟩
      | cons h rest => exact ⟨rfl, Nat.le_refl _⟩
  | _ => exact ⟨rfl, Nat.le_refl _⟩

end Session

namespace Shared

/-- The entries that all tasks together have booked. -/
def booked (c : Shared) : Nat :=
  (c.opens.map OpenPc.booked).sum + c.reader.booked

/-- A limit check would pass although the entries of the registry and those
booked already reach the limit. -/
def full (c : Shared) : Bool :=
  decide (c.session.registry.len < c.session.config.maxStreams) &&
    decide (c.session.config.maxStreams ≤ c.session.registry.len + c.booked)

/-- The step is such a limit check. -/
def overbooks (c : Shared) : Tick → Bool
  | .openStep k =>
      match c.opens[k]? with
      | some .limitCheck => c.full
      | _ => false
  | .readerStep =>
      match c.reader with
      | .limitCheck _ => c.full
      | _ => false
  | _ => false

/-- Entries and bookings are within the limit. -/
structure WithinLimit (cfg : Config) (c : Shared) : Prop where
  config : c.session.config = cfg
  bound : c.session.registry.len + c.booked ≤ cfg.maxStreams

variable {cfg : Config} {c : Shared}

namespace WithinLimit

/-- A call of `open()` makes a step that books nothing, or one for which there
is room. -/
theorem advance (h : WithinLimit cfg c) {k : Nat}
    {f : Session → OpenPc → Session × OpenPc}
    (hf : ∀ pc, c.opens[k]? = some pc →
      (f c.session pc).1.config = c.session.config ∧
        (f c.session pc).1.registry.len + (f c.session pc).2.booked +
            c.booked ≤ cfg.maxStreams + pc.booked) :
    WithinLimit cfg (c.advance k f) := by
  unfold Shared.advance
  cases hpc : c.opens[k]? with
  | none => exact h
  | some pc =>
      obtain ⟨hcfg, hle⟩ := hf pc hpc
      refine ⟨hcfg.trans h.config, ?_⟩
      have hset := Lib.Interleave.sum_map_set OpenPc.booked (f c.session pc).2 hpc
      unfold booked at hle ⊢
      dsimp only
      omega

/-- A check that passes and does not overbook leaves room for one more. -/
theorem room (h : WithinLimit cfg c) (hfull : c.full = false)
    (hlt : c.session.registry.len < c.session.config.maxStreams) :
    c.session.registry.len + c.booked < cfg.maxStreams := by
  simp only [full, hlt, decide_true, Bool.true_and,
    decide_eq_false_iff_not] at hfull
  rw [h.config] at hfull
  omega

/-- The session changes in other parts, and its registry does not grow. -/
theorem of_le (h : WithinLimit cfg c) {s : Session}
    (hcfg : s.config = c.session.config)
    (hle : s.registry.len ≤ c.session.registry.len) :
    WithinLimit cfg { c with session := s } := by
  refine ⟨hcfg.trans h.config, ?_⟩
  have hbound := h.bound
  unfold booked at hbound ⊢
  dsimp only
  omega

/-- **A step that does not overbook stays within the limit.** -/
theorem step (h : WithinLimit cfg c) {t : Tick} (ht : c.overbooks t = false) :
    WithinLimit cfg (c.step t) := by
  have hbound := h.bound
  cases t with
  | call =>
      refine ⟨h.config, ?_⟩
      unfold Shared.step booked
      unfold booked at hbound
      simpa [OpenPc.booked] using hbound
  | openStep k =>
      refine h.advance fun pc hpc => ?_
      obtain ⟨hcfg, hle | ⟨rfl, hlt, heq⟩⟩ := c.session.advanceOpen_books pc
      · exact ⟨hcfg, by omega⟩
      · have hroom := h.room (by simpa [overbooks, hpc] using ht) hlt
        rw [heq]
        refine ⟨rfl, ?_⟩
        simp only [OpenPc.booked]
        omega
  | openTimer k =>
      refine h.advance fun pc hpc => ?_
      obtain ⟨hcfg, hle⟩ := c.session.openTimer_books pc
      exact ⟨hcfg, by omega⟩
  | syn id =>
      unfold Shared.step
      dsimp only
      split
      · rename_i hidle
        refine ⟨h.config, ?_⟩
        unfold booked at hbound ⊢
        rw [hidle.1] at hbound
        exact hbound
      · exact h
  | readerStep =>
      obtain ⟨hcfg, hcase⟩ := c.session.advanceSyn_books c.reader
      refine ⟨hcfg.trans h.config, ?_⟩
      unfold Shared.step
      rcases hcase with hle | ⟨id, hpc, hlt, heq⟩
      · unfold booked at hbound ⊢
        dsimp only
        omega
      · have hroom := h.room (by simpa [overbooks, hpc] using ht) hlt
        unfold booked at hroom ⊢
        dsimp only
        rw [heq]
        simp only [hpc, SynPc.booked] at hroom ⊢
        omega
  | ack n => exact h.of_le rfl (Nat.le_refl _)
  | rst n => exact h.of_le rfl (Nat.le_refl _)
  | peerGone => exact h.of_le rfl (Nat.le_refl _)
  | remove id => exact h.of_le rfl (StreamRegistry.len_remove_le _ _)
  | shutdown code =>
      unfold Shared.step
      dsimp only
      split
      · exact h
      · exact { h with }
  | shutdownStep =>
      obtain ⟨hcfg, hle⟩ := c.session.advanceShutdown_books c.shutdown
      exact { h.of_le hcfg hle with }

end WithinLimit

/-- **`max_streams` is a hard cap when no check overbooks it.**  In every
interleaving of the atomic steps of any number of calls of `open()`, of the
reader's `SYN` frames, of the closer and of shutdowns, in which every limit
check that passes has room for the entries booked by tasks between their own
check and their insertion, the registry never holds more than `max_streams`
entries. -/
theorem len_le_maxStreams (cfg : Config) (role : Role) (ts : List Tick)
    (hrun : Along step (fun c t => c.overbooks t = false) (new cfg role) ts) :
    (run step (new cfg role) ts).session.registry.len ≤ cfg.maxStreams := by
  have hall : WithinLimit cfg (run step (new cfg role) ts) :=
    run_invariant step (fun c t h ht => h.step ht) ts _
      ⟨rfl, Nat.zero_le _⟩ hrun
  exact Nat.le_of_add_right_le hall.bound

/-- A limit of one stream. -/
def single : Config := { Config.default with maxStreams := 1 }

/-- Two calls of `open()` that take turns. -/
def turns : List Tick :=
  [.call, .call, .openStep 0, .openStep 1, .openStep 0, .openStep 1,
    .openStep 0, .openStep 1, .openStep 0, .openStep 1, .openStep 0,
    .openStep 1]

/-- Both pass the check before either inserts. -/
theorem turns_exceed :
    (run step (new single .client) turns).session.registry.len = 2 := by
  decide +kernel

/-- One call after the other. -/
def queue : List Tick :=
  [.call, .call, .openStep 0, .openStep 0, .openStep 0, .openStep 0,
    .openStep 0, .openStep 1, .openStep 1, .openStep 1]

theorem len_le_maxStreams_queue :
    (run step (new single .client) queue).session.registry.len = 1 ∧
      (run step (new single .client) queue).session.registry.len ≤
        single.maxStreams :=
  ⟨by decide +kernel,
    len_le_maxStreams single .client queue (by decide +kernel)⟩

end Shared

end NetMux
