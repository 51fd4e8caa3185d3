import NetMux.Concurrent.Polling
import NetMux.Lib.Interleave

/-!
# No lost wake-up

A stream is polled at its three wait points while any number of calls notify
it, each at its own pace.  The promise of `Lib.Wakeup` holds at each wait
point from the registration on: of the signals that the poll has found down
since, any that is up was followed by a wake-up or is owed one.

One instruction raises a signal without a wake-up to follow: a second
`local_reset` closes both halves again and returns.  It is excused by the
reset itself, which the poll checks last or whose first raiser still has to
wake.
-/

namespace NetMux

open Lib.Run Lib.Wakeup
open Lib.Interleave (mem_set_self mem_set_of_ne forall_set forall_concat)

/-! ## What a notifier owes -/

/-- The points that look at a signal. -/
def Signal.watchers (s : Signal) : List Point :=
  [Point.window, .recv, .ack].filter fun q => q.signals.contains s

theorem Signal.mem_watchers {s : Signal} {q : Point} (h : s ∈ q.signals) :
    q ∈ s.watchers := by
  cases q <;> simp_all [watchers, Point.signals]

/-- Every signal of a list of instructions is followed by the wake-ups of the
points that look at it; the swap of `local_reset` brings its own. -/
def covered : List Prim → Bool
  | [] => true
  | p :: rest =>
      p.signal.all (fun s => s.watchers.all fun q => rest.contains (.wake q)) &&
        (p != .swapReset || rest.isEmpty) && covered rest

/-- The programs wake whoever their changes concern. -/
theorem covered_program (n : Notify) : covered n.program = true := by
  cases n with
  | grant delta =>
      show covered (if delta = 0 then [] else _) = true
      split <;> rfl
  | pushData payload =>
      show covered (if payload.isEmpty then [] else _) = true
      split <;> rfl
  | _ => rfl

theorem covered_cons {p : Prim} {rest : List Prim}
    (h : covered (p :: rest) = true) :
    (∀ s q, p.signal = some s → s ∈ q.signals → .wake q ∈ rest) ∧
      (p = .swapReset → rest = []) ∧ covered rest = true := by
  simp only [covered, Bool.and_eq_true] at h
  obtain ⟨⟨hwakes, hswap⟩, hrest⟩ := h
  refine ⟨fun s q hs hq => ?_, fun hp => ?_, hrest⟩
  · rw [hs, Option.all_some, List.all_eq_true] at hwakes
    simpa using hwakes q (Signal.mem_watchers hq)
  · simpa [hp] using hswap

namespace Notifier

/-- A notifier is on its way: what it has yet to change it will announce,
unless it is the rest of a second `local_reset`. -/
def Ok (l : Live) (n : Notifier) : Prop :=
  covered n.todo = true ∨
    l.up .reset = true ∧ ∀ p ∈ n.todo, p = .clearRead ∨ p = .clearWrite

/-- Nothing undoes that as long as a reset is not undone. -/
theorem Ok.mono {l l' : Live} {n : Notifier} (h : Ok l n)
    (hreset : l.up .reset = true → l'.up .reset = true) : Ok l' n :=
  h.imp_right fun ⟨hr, htodo⟩ => ⟨hreset hr, htodo⟩

theorem ok_start (l : Live) (n : Notify) : Ok l (start n) :=
  .inl (covered_program n)

variable {l : Live} {n : Notifier} {p : Prim} {rest : List Prim}

/-- What follows an instruction is covered when it was. -/
theorem covered_exec (spurious : Bool) (h : covered (p :: rest) = true) :
    covered ((p.exec spurious l).2.1 ++ rest) = true ∨
      p = .swapReset ∧ l.up .reset = true ∧
        (p.exec spurious l).2.1 ++ rest = [.clearRead, .clearWrite] := by
  obtain ⟨hwakes, hswap, hrest⟩ := covered_cons h
  have hadd : ∀ delta cur, p.signal = some .credit →
      covered (.addCredit delta cur :: rest) = true := by
    intro delta cur hsig
    have hwake := hwakes .credit .window hsig (by decide)
    simp [covered, Prim.signal, Signal.watchers, Point.signals, hwake, hrest]
  cases p with
  | loadCredit delta => exact .inl (hadd _ _ rfl)
  | addCredit delta cur =>
      simp only [Prim.exec]
      split
      · exact .inl hrest
      · exact .inl (hadd _ _ rfl)
  | swapReset =>
      have hnil := hswap rfl
      subst hnil
      simp only [Prim.exec]
      split
      · rename_i hreset
        exact .inr ⟨trivial, hreset, rfl⟩
      · exact .inl rfl
  | sendRst =>
      simp only [Prim.exec]
      split <;> exact .inl hrest
  | _ => exact .inl hrest

theorem owes_iff {q : Point} :
    n.owes q = true ↔
      (∃ s ∈ n.raised, s ∈ q.signals) ∧ .wake q ∈ n.todo := by
  simp [owes]

/-- **One instruction of a notifier.**  It keeps the notifier on its way, and
a signal it raises it then owes to every point that looks at it, but for the
halves that a second `local_reset` closes. -/
theorem Ok.next (h : Ok l n) (spurious : Bool) :
    Ok (n.next spurious l).1 (n.next spurious l).2 ∧
    ∀ s q, s ∈ q.signals → (n.next spurious l).1.up s = true →
      l.up s = true ∨ (n.next spurious l).2.owes q = true ∨
        l.up .reset = true ∧ (s = .readShut ∨ s = .writeShut) := by
  cases htodo : n.todo with
  | nil =>
      rw [next_nil htodo]
      exact ⟨h, fun s q _ hup => .inl hup⟩
  | cons p rest =>
      rw [next_cons htodo]
      unfold Ok at h
      rw [htodo] at h
      rcases h with hcov | ⟨hreset, hleft⟩
      · constructor
        · rcases covered_exec (l := l) spurious hcov with
            hcov' | ⟨-, hreset, htail⟩
          · exact .inl hcov'
          · refine .inr ⟨p.exec_keeps spurious l hreset, fun p' hp' => ?_⟩
            rw [htail] at hp'
            simpa using hp'
        · intro s q hq hup
          refine (p.exec_up spurious l hup).imp_right fun hraised => .inl ?_
          rw [owes_iff]
          refine ⟨⟨s, ?_, hq⟩, ?_⟩
          · simp [hraised]
          · rcases p.exec_raises spurious l hraised with hsig | ⟨-, rfl, hrest⟩
            · exact List.mem_append_right _ ((covered_cons hcov).1 s q hsig hq)
            · apply List.mem_append_left
              rw [hrest]
              cases q <;> simp_all [Point.signals, Prim.resetRest]
      · have hmore : (p.exec spurious l).2.1 = [] ∧
            ∀ s, (p.exec spurious l).2.2 = some s →
              s = .readShut ∨ s = .writeShut := by
          rcases hleft p List.mem_cons_self with rfl | rfl
          · exact ⟨rfl, fun s hs => .inl (Option.some.inj hs.symm)⟩
          · exact ⟨rfl, fun s hs => .inr (Option.some.inj hs.symm)⟩
        constructor
        · refine .inr ⟨p.exec_keeps spurious l hreset, fun p' hp' => ?_⟩
          rw [hmore.1] at hp'
          exact hleft p' (List.mem_cons_of_mem p hp')
        · intro s q hq hup
          exact (p.exec_up spurious l hup).imp_right fun hraised =>
            .inr ⟨hreset, hmore.2 s hraised⟩

/-- What a step does to a waker, and to a wake-up that is owed there. -/
theorem next_wakers (n : Notifier) (spurious : Bool) (l : Live) (q : Point) :
    (n.next spurious l).1.wakers q = (l.wakers q).wake ∨
      (n.next spurious l).1.wakers q = l.wakers q ∧
        (n.owes q = true → (n.next spurious l).2.owes q = true) := by
  cases htodo : n.todo with
  | nil =>
      rw [next_nil htodo]
      exact .inr ⟨rfl, fun h => h⟩
  | cons p rest =>
      rw [next_cons htodo]
      rw [Prim.exec_wakers]
      by_cases hp : p = .wake q
      · exact .inl (if_pos hp)
      · rw [if_neg hp]
        refine .inr ⟨rfl, fun howes => ?_⟩
        rw [owes_iff, htodo] at howes
        obtain ⟨⟨s, hs, hq⟩, hmem⟩ := howes
        rw [owes_iff]
        refine ⟨⟨s, List.mem_append_left _ hs, hq⟩, List.mem_append_right _ ?_⟩
        exact (List.mem_cons.mp hmem).resolve_left fun he => hp he.symm

end Notifier

/-! ## What a poll has found -/

/-- The signals a call of `poll_acquire` has found down since it
registered. -/
def AcquirePc.checked : AcquirePc → Option (List Signal)
  | closedRecheck _ => some []
  | load _ true | exchange _ _ true => some [.closed]
  | done .pending => some [.closed, .credit]
  | _ => none

/-- The signals a call of `poll_read` has found down since it registered. -/
def ReadPc.checked : ReadPc → Option (List Signal)
  | emptyRecheck _ _ => some []
  | openRecheck _ _ => some [.bytes]
  | resetRecheck _ _ => some [.bytes, .readShut]
  | done .pending => some [.bytes, .readShut, .reset]
  | _ => none

/-- The signals a poll of `wait_acked` has found down since it registered. -/
def AckPc.checked : AckPc → Option (List Signal)
  | ackRecheck => some []
  | resetRecheck => some [.acked]
  | openRecheck => some [.acked, .reset]
  | done .pending => some [.acked, .reset, .writeShut]
  | _ => none

theorem AcquirePc.checked_sub {pc : AcquirePc} {cs : List Signal}
    (h : pc.checked = some cs) : ∀ s ∈ cs, s ∈ Point.window.signals := by
  cases pc with
  | closedRecheck desired =>
      cases h
      simp
  | load desired again =>
      cases again with
      | false => cases h
      | true =>
          cases h
          simp [Point.signals]
  | exchange desired cur again =>
      cases again with
      | false => cases h
      | true =>
          cases h
          simp [Point.signals]
  | done outcome =>
      cases outcome with
      | pending =>
          cases h
          simp [Point.signals]
      | _ => cases h
  | _ => cases h

theorem ReadPc.checked_sub {pc : ReadPc} {cs : List Signal}
    (h : pc.checked = some cs) : ∀ s ∈ cs, s ∈ Point.recv.signals := by
  unfold checked at h
  split at h <;> cases h <;> simp [Point.signals]

theorem AckPc.checked_sub {pc : AckPc} {cs : List Signal}
    (h : pc.checked = some cs) : ∀ s ∈ cs, s ∈ Point.ack.signals := by
  unfold checked at h
  split at h <;> cases h <;> simp [Point.signals]

/-- A point that looks at a half looks at the reset bit. -/
theorem Point.reset_mem {q : Point} {s : Signal} (hs : s ∈ q.signals)
    (hhalf : s = .readShut ∨ s = .writeShut) : .reset ∈ q.signals := by
  cases q with
  | window => rcases hhalf with rfl | rfl <;> exact absurd hs (by decide)
  | recv => decide
  | ack => decide

/-- Closing the halves again needs no wake-up while a poll has yet to check
the reset bit. -/
def Live.excuse (l : Live) (q : Point) (checked : List Signal) : Prop :=
  l.up .reset = true ∧ .reset ∈ q.signals ∧ .reset ∉ checked

/-- The promise to a poll at a point that has found some signals down. -/
def Live.Promises (l : Live) (owed : Prop) (q : Point)
    (checked : List Signal) : Prop :=
  Promise (fun s => l.up s = true) owed (l.excuse q checked) (l.wakers q) checked

namespace Live

variable {l l' : Live} {owed owed' : Prop} {q : Point} {checked : List Signal}

/-- A step that raises nothing and leaves the waker alone. -/
theorem Promises.frame (h : l.Promises owed q checked)
    (hup : ∀ s, l'.up s = true → l.up s = true)
    (hreset : l.up .reset = true → l'.up .reset = true)
    (hwaker : l'.wakers q = l.wakers q) (howed : owed → owed') :
    l'.Promises owed' q checked := by
  unfold Promises
  rw [hwaker]
  exact h.step (fun s _ hs => .inl (hup s hs)) howed
    fun he => ⟨hreset he.1, he.2⟩

/-- The poll finds one more signal down.  When that is the reset, nothing was
excused. -/
theorem Promises.check (h : l.Promises owed q checked) {s : Signal}
    (hs : l.up s = false) : l.Promises owed q (checked ++ [s]) := by
  have hdown : ¬ l.up s = true := by simp [hs]
  by_cases hreset : s = .reset
  · subst hreset
    exact (Promise.check h hdown).refute fun he => hdown he.1
  · refine (Promise.check h hdown).step (fun s _ hs => .inl hs) id fun he => ?_
    refine ⟨he.1, he.2.1, fun hmem => ?_⟩
    rcases List.mem_append.mp hmem with hold | hnew
    · exact he.2.2 hold
    · exact hreset (List.mem_singleton.mp hnew).symm

/-- A re-check: the poll is over when the signal is up, and goes on with the
promise for one signal more when it is down. -/
theorem Promises.recheck {π : Type} (found : π → Option (List Signal))
    {a b : π} {s : Signal} {cs : List Signal} (h : l.Promises owed q checked)
    (ha : found a = none) (hb : found b = some (checked ++ [s]))
    (hcs : found (if l.up s then a else b) = some cs) :
    l.Promises owed q cs := by
  split at hcs
  · cases ha.symm.trans hcs
  · rename_i hs
    cases hb.symm.trans hcs
    exact h.check (Bool.not_eq_true _ ▸ hs)

theorem promises_register (l : Live) (owed : Prop) (q : Point) :
    (l.register q).Promises owed q [] := by
  have hwaker : (l.register q).wakers q = (l.wakers q).register :=
    Function.update_self ..
  unfold Promises
  rw [hwaker]
  exact Promise.register _ _ _ _

/-! ### The steps of the polls -/

/-- A poll raises no signal, takes none down that is not its own, undoes no
reset and touches its own waker only. -/
structure Polls (l l' : Live) (q : Point) : Prop where
  up : ∀ s, l'.up s = true → l.up s = true
  keeps : ∀ s, s ∉ q.signals → l.up s = true → l'.up s = true
  reset : l.up .reset = true → l'.up .reset = true
  wakers : ∀ q', q' ≠ q → l'.wakers q' = l.wakers q'

theorem Polls.refl (l : Live) (q : Point) : Polls l l q :=
  ⟨fun _ h => h, fun _ _ h => h, fun h => h, fun _ _ => rfl⟩

theorem polls_register (l : Live) (q : Point) : Polls l (l.register q) q where
  up := fun s h => by cases s <;> exact h
  keeps := fun s _ h => by cases s <;> exact h
  reset := fun h => h
  wakers := fun q' hq' => Function.update_of_ne hq' _ _

theorem polls_acquireNext (spurious : Bool) (l : Live) (pc : AcquirePc) :
    Polls l (l.acquireNext spurious pc).1 .window := by
  cases pc with
  | exchange desired cur again =>
      simp only [acquireNext]
      split
      · rename_i hwin
        rw [Bool.and_eq_true, beq_iff_eq] at hwin
        refine ⟨fun s h => ?_, fun s hs h => ?_, fun h => h, fun _ _ => rfl⟩
        · cases s with
          | credit =>
              show (l.inner.sendWindow.available != 0) = true
              have hset : (cur - min cur desired != 0) = true := h
              rw [hwin.2, bne_iff_ne]
              rintro rfl
              have hmin : min 0 desired = 0 := by
                rw [← UInt32.toNat_inj, UInt32.toNat_min, UInt32.toNat_zero,
                  Nat.zero_min]
              rw [hmin] at hset
              cases hset
          | _ => exact h
        · cases s with
          | credit => exact absurd (by decide) hs
          | _ => exact h
      · exact .refl l _
  | register desired => exact polls_register l .window
  | _ => exact .refl l _

theorem polls_readNext (l : Live) (pc : ReadPc) :
    Polls l (l.readNext pc).1 .recv := by
  cases pc with
  | drain remaining pass =>
      refine ⟨fun s h => ?_, fun s hs h => ?_, fun h => h, fun _ _ => rfl⟩
      · cases s with
        | bytes =>
            have hleft : (!(l.inner.recv.readInto remaining).2.isEmpty) = true :=
              h
            show (!l.inner.recv.isEmpty) = true
            rw [Bool.not_eq_true', ← Bool.not_eq_true, RecvBuffer.isEmpty_iff]
              at hleft ⊢
            rw [RecvBuffer.readInto_contents] at hleft
            intro hnil
            rw [hnil, List.drop_nil] at hleft
            exact hleft rfl
        | _ => exact h
      · cases s with
        | bytes => exact absurd (by decide) hs
        | _ => exact h
  | consume bytes =>
      refine ⟨fun s h => ?_, fun s _ h => ?_, fun h => h, fun _ _ => rfl⟩ <;>
        cases s <;> exact h
  | register remaining pass => exact polls_register l .recv
  | _ => exact .refl l _

theorem polls_ackNext (l : Live) (pc : AckPc) :
    Polls l (l.ackNext pc).1 .ack := by
  cases pc with
  | register => exact polls_register l .ack
  | _ => exact .refl l _

/-- A step of `poll_acquire` keeps the promise it was given. -/
theorem promises_acquireNext (spurious : Bool) {pc : AcquirePc}
    (h : ∀ cs, pc.checked = some cs → l.Promises owed .window cs)
    {cs : List Signal}
    (hcs : (l.acquireNext spurious pc).2.checked = some cs) :
    (l.acquireNext spurious pc).1.Promises owed .window cs := by
  cases pc with
  | idle => exact h cs hcs
  | closedCheck desired =>
      simp only [acquireNext] at hcs
      split at hcs <;> cases hcs
  | load desired again =>
      simp only [acquireNext] at hcs ⊢
      split at hcs
      · rename_i hzero
        cases again with
        | false => cases hcs
        | true =>
            cases hcs
            have hdown : l.up .credit = false := by simp [up, hzero]
            exact (h [.closed] rfl).check hdown
      · cases again with
        | false => cases hcs
        | true =>
            cases hcs
            exact h [.closed] rfl
  | exchange desired cur again =>
      simp only [acquireNext] at hcs ⊢
      split at hcs
      · cases hcs
      · rename_i hlose
        rw [if_neg hlose]
        cases again with
        | false => cases hcs
        | true =>
            cases hcs
            exact h [.closed] rfl
  | register desired =>
      cases hcs
      exact promises_register l owed .window
  | closedRecheck desired =>
      exact (h [] rfl).recheck AcquirePc.checked (s := .closed) rfl rfl hcs
  | done outcome => exact h cs hcs

/-- A step of `poll_read` does. -/
theorem promises_readNext {pc : ReadPc}
    (h : ∀ cs, pc.checked = some cs → l.Promises owed .recv cs)
    {cs : List Signal} (hcs : (l.readNext pc).2.checked = some cs) :
    (l.readNext pc).1.Promises owed .recv cs := by
  cases pc with
  | idle => exact h cs hcs
  | resetCheck remaining pass =>
      simp only [readNext] at hcs
      split at hcs <;> cases hcs
  | drain remaining pass =>
      simp only [readNext] at hcs
      split at hcs <;> cases hcs
  | consume bytes => cases hcs
  | openCheck remaining pass =>
      simp only [readNext] at hcs
      split at hcs <;> cases hcs
  | register remaining pass =>
      cases hcs
      exact promises_register l owed .recv
  | emptyRecheck remaining pass =>
      exact (h [] rfl).recheck ReadPc.checked (s := .bytes) rfl rfl hcs
  | openRecheck remaining pass =>
      exact (h [.bytes] rfl).recheck ReadPc.checked (s := .readShut) rfl rfl hcs
  | resetRecheck remaining pass =>
      exact (h [.bytes, .readShut] rfl).recheck ReadPc.checked (s := .reset) rfl rfl hcs
  | done result => exact h cs hcs

/-- So does a step of `wait_acked`. -/
theorem promises_ackNext {pc : AckPc}
    (h : ∀ cs, pc.checked = some cs → l.Promises owed .ack cs)
    {cs : List Signal} (hcs : (l.ackNext pc).2.checked = some cs) :
    (l.ackNext pc).1.Promises owed .ack cs := by
  cases pc with
  | idle => exact h cs hcs
  | ackCheck =>
      simp only [ackNext] at hcs
      split at hcs <;> cases hcs
  | resetCheck =>
      simp only [ackNext] at hcs
      split at hcs <;> cases hcs
  | openCheck =>
      simp only [ackNext] at hcs
      split at hcs <;> cases hcs
  | register =>
      cases hcs
      exact promises_register l owed .ack
  | ackRecheck =>
      exact (h [] rfl).recheck AckPc.checked (s := .acked) rfl rfl hcs
  | resetRecheck =>
      exact (h [.acked] rfl).recheck AckPc.checked (s := .reset) rfl rfl hcs
  | openRecheck =>
      exact (h [.acked, .reset] rfl).recheck AckPc.checked (s := .writeShut) rfl rfl hcs
  | done result => exact h cs hcs

end Live

/-! ## The passes of `poll_read` -/

/-- Why the loop ends: a second pass begins with a signal up that no other
call takes down, and each check it passes leaves one fewer of them. -/
def ReadPc.Bounded (l : Live) : ReadPc → Prop
  | resetCheck _ n =>
      n = 1 ∨ n = 2 ∧ (l.up .bytes = true ∨ l.up .readShut = true ∨
        l.up .reset = true)
  | drain _ n => n = 1 ∨ n = 2 ∧ (l.up .bytes = true ∨ l.up .readShut = true)
  | openCheck _ n => n = 1 ∨ n = 2 ∧ l.up .readShut = true
  | register _ n | emptyRecheck _ n | openRecheck _ n | resetRecheck _ n =>
      n = 1
  | idle | consume _ | done _ => True

namespace ReadPc

variable {l l' : Live} {pc : ReadPc}

theorem Bounded.mono (h : pc.Bounded l)
    (hkeep : ∀ s ∈ Point.recv.signals, l.up s = true → l'.up s = true) :
    pc.Bounded l' := by
  have hbytes := hkeep .bytes (by decide)
  have hshut := hkeep .readShut (by decide)
  have hreset := hkeep .reset (by decide)
  cases pc with
  | resetCheck remaining n =>
      exact h.imp_right (·.imp_right (·.imp hbytes (·.imp hshut hreset)))
  | drain remaining n => exact h.imp_right (·.imp_right (·.imp hbytes hshut))
  | openCheck remaining n => exact h.imp_right (·.imp_right hshut)
  | _ => exact h

theorem Bounded.pass_le (h : pc.Bounded l) : pc.pass ≤ 2 := by
  cases pc <;> simp only [Bounded, pass] at h ⊢ <;> omega

theorem bounded_start (l : Live) (remaining : Nat) :
    (start remaining).Bounded l := by
  unfold start
  split
  · exact .inl rfl
  · trivial

/-- One step of `poll_read` stays within two passes. -/
theorem Bounded.next (h : pc.Bounded l) :
    (l.readNext pc).2.Bounded (l.readNext pc).1 := by
  cases pc with
  | idle => trivial
  | resetCheck remaining n =>
      simp only [Live.readNext]
      split
      · trivial
      · rename_i hreset
        rcases h with h1 | ⟨h2, hb | hs | hr⟩
        · exact .inl h1
        · exact .inr ⟨h2, .inl hb⟩
        · exact .inr ⟨h2, .inr hs⟩
        · exact absurd hr hreset
  | drain remaining n =>
      simp only [Live.readNext]
      split
      · trivial
      · rename_i hout
        rcases h with h1 | ⟨h2, hb | hs⟩
        · exact .inl h1
        · -- bytes that are there are drained
          have hne : l.inner.recv.contents ≠ [] := by
            simpa [Live.up, ← RecvBuffer.isEmpty_iff] using hb
          have hlen := List.length_pos_iff.mpr hne
          have hpos := remaining.pos
          rw [RecvBuffer.readInto_fst, List.length_take] at hout
          omega
        · exact .inr ⟨h2, hs⟩
  | consume bytes => trivial
  | openCheck remaining n =>
      simp only [Live.readNext]
      split
      · trivial
      · rename_i hopen
        rcases h with h1 | ⟨-, hs⟩
        · exact h1
        · exact absurd hs hopen
  | register remaining n => exact h
  | emptyRecheck remaining n =>
      simp only [Live.readNext]
      split
      · rename_i hb
        exact .inr ⟨congrArg (· + 1) h, .inl hb⟩
      · exact h
  | openRecheck remaining n =>
      simp only [Live.readNext]
      split
      · rename_i hs
        exact .inr ⟨congrArg (· + 1) h, .inr (.inl hs)⟩
      · exact h
  | resetRecheck remaining n =>
      simp only [Live.readNext]
      split
      · rename_i hr
        exact .inr ⟨congrArg (· + 1) h, .inr (.inr hr)⟩
      · trivial
  | done result => trivial

end ReadPc

/-! ## The system -/

/-- A stream with a poll at each wait point and any number of calls that
notify. -/
structure Polled where
  live : Live
  acquire : AcquirePc
  read : ReadPc
  ack : AckPc
  notifiers : List Notifier

namespace Polled

/-- What can happen: a poll begins or makes its next step, or a call that
notifies does. -/
inductive Turn where
  | startAcquire (desired : UInt32)
  | acquire (spurious : Bool)
  | startRead (remaining : Nat)
  | read
  | startAck
  | ack
  | notify (n : Notify)
  | go (k : Nat) (spurious : Bool)
  deriving DecidableEq, Repr

def new (s : StreamInner) : Polled := ⟨.new s, .idle, .idle, .idle, []⟩

/-- A poll begins only when the one before has returned. -/
def step (x : Polled) : Turn → Polled
  | .startAcquire desired =>
      match x.acquire with
      | .idle | .done _ => { x with acquire := .closedCheck desired }
      | _ => x
  | .acquire spurious =>
      { x with
        live := (x.live.acquireNext spurious x.acquire).1
        acquire := (x.live.acquireNext spurious x.acquire).2 }
  | .startRead remaining =>
      match x.read with
      | .idle | .done _ => { x with read := .start remaining }
      | _ => x
  | .read =>
      { x with
        live := (x.live.readNext x.read).1
        read := (x.live.readNext x.read).2 }
  | .startAck =>
      match x.ack with
      | .idle | .done _ => { x with ack := .ackCheck }
      | _ => x
  | .ack =>
      { x with
        live := (x.live.ackNext x.ack).1
        ack := (x.live.ackNext x.ack).2 }
  | .notify n => { x with notifiers := x.notifiers ++ [.start n] }
  | .go k spurious =>
      match x.notifiers[k]? with
      | none => x
      | some n =>
          { x with
            live := (n.next spurious x.live).1
            notifiers := x.notifiers.set k (n.next spurious x.live).2 }

/-- The signals that the poll at a point has found down since it
registered. -/
def checked (x : Polled) : Point → Option (List Signal)
  | .window => x.acquire.checked
  | .recv => x.read.checked
  | .ack => x.ack.checked

/-- Some call is between a change that ends the wait at a point and its
wake-up there. -/
def Owed (x : Polled) (q : Point) : Prop :=
  ∃ n ∈ x.notifiers, n.owes q = true

/-- What holds in every reachable state. -/
structure Kept (x : Polled) : Prop where
  notifiers : ∀ n ∈ x.notifiers, n.Ok x.live
  promises : ∀ q cs, x.checked q = some cs → x.live.Promises (x.Owed q) q cs
  bounded : x.read.Bounded x.live

theorem kept_new (s : StreamInner) : Kept (new s) where
  notifiers := fun _ hn => absurd hn List.not_mem_nil
  promises := fun q cs hcs => by cases q <;> cases hcs
  bounded := trivial

section Step

variable {x x' : Polled}

/-- A poll moves on: what it is promised is its own affair, and the other
polls do not notice. -/
theorem Kept.poll (h : Kept x) (q₀ : Point)
    (hpolls : Live.Polls x.live x'.live q₀)
    (hsame : x'.notifiers = x.notifiers)
    (hchecked : ∀ q, q ≠ q₀ → x'.checked q = x.checked q)
    (hown : ∀ cs, x'.checked q₀ = some cs →
      x'.live.Promises (x.Owed q₀) q₀ cs)
    (hbounded : x'.read.Bounded x'.live) : Kept x' where
  notifiers := fun n hn => (h.notifiers n (hsame ▸ hn)).mono hpolls.reset
  promises := fun q cs hcs => by
    have howed : x.Owed q → x'.Owed q := by
      unfold Owed
      rw [hsame]
      exact id
    by_cases hq : q = q₀
    · subst hq
      exact (hown cs hcs).frame (fun _ h => h) (fun h => h) rfl howed
    · rw [hchecked q hq] at hcs
      exact (h.promises q cs hcs).frame hpolls.up hpolls.reset
        (hpolls.wakers q hq) howed
  bounded := hbounded

/-- A poll begins. -/
theorem Kept.start (h : Kept x) (q₀ : Point) (hlive : x'.live = x.live)
    (hsame : x'.notifiers = x.notifiers)
    (hchecked : ∀ q, q ≠ q₀ → x'.checked q = x.checked q)
    (hnone : x'.checked q₀ = none) (hbounded : x'.read.Bounded x.live) :
    Kept x' := by
  refine h.poll q₀ (hlive ▸ .refl _ _) hsame hchecked (fun cs hcs => ?_)
    (hlive ▸ hbounded)
  cases hnone.symm.trans hcs

/-- A poll of one point leaves the passes of `poll_read` alone. -/
theorem Kept.bounded_poll (h : Kept x) {l : Live} {q : Point}
    (hpolls : Live.Polls x.live l q) (hq : q ≠ .recv) : x.read.Bounded l := by
  refine h.bounded.mono fun s hs hup => ?_
  cases s with
  | reset => exact hpolls.reset hup
  | bytes => exact hpolls.keeps _ (by cases q <;> simp_all [Point.signals]) hup
  | readShut =>
      exact hpolls.keeps _ (by cases q <;> simp_all [Point.signals]) hup
  | _ => exact absurd hs (by decide)

theorem checked_sub {q : Point} {cs : List Signal}
    (h : x.checked q = some cs) : ∀ s ∈ cs, s ∈ q.signals := by
  cases q with
  | window => exact AcquirePc.checked_sub h
  | recv => exact ReadPc.checked_sub h
  | ack => exact AckPc.checked_sub h

theorem checked_of_ne_window {pc : AcquirePc} {l : Live} {q : Point}
    (hq : q ≠ .window) :
    ({ x with live := l, acquire := pc } : Polled).checked q = x.checked q := by
  cases q with
  | window => exact absurd rfl hq
  | _ => rfl

theorem checked_of_ne_recv {pc : ReadPc} {l : Live} {q : Point}
    (hq : q ≠ .recv) :
    ({ x with live := l, read := pc } : Polled).checked q = x.checked q := by
  cases q with
  | recv => exact absurd rfl hq
  | _ => rfl

theorem checked_of_ne_ack {pc : AckPc} {l : Live} {q : Point} (hq : q ≠ .ack) :
    ({ x with live := l, ack := pc } : Polled).checked q = x.checked q := by
  cases q with
  | ack => exact absurd rfl hq
  | _ => rfl

/-- A call that notifies makes its next step. -/
theorem Kept.go (h : Kept x) {k : Nat} {n : Notifier}
    (hk : x.notifiers[k]? = some n) (spurious : Bool) :
    Kept { x with
      live := (n.next spurious x.live).1
      notifiers := x.notifiers.set k (n.next spurious x.live).2 } := by
  obtain ⟨hok, hraise⟩ := (h.notifiers n (List.mem_of_getElem? hk)).next spurious
  have hreset : x.live.up .reset = true →
      (n.next spurious x.live).1.up .reset = true := n.next_keeps spurious
  have hmem := mem_set_self (n.next spurious x.live).2 hk
  refine ⟨?_, fun q cs hcs => ?_, ?_⟩
  · exact forall_set (fun m hm => (h.notifiers m hm).mono hreset) hok
  · have hchecked : x.checked q = some cs := by cases q <;> exact hcs
    have hp := h.promises q cs hchecked
    rcases n.next_wakers spurious x.live q with hwake | ⟨hwaker, howes⟩
    · unfold Live.Promises
      rw [hwake]
      exact Promise.wake hp
    have howed : x.Owed q → ∃ m ∈ x.notifiers.set k (n.next spurious x.live).2,
        m.owes q = true := by
      rintro ⟨m, hm, hmq⟩
      by_cases hmn : m = n
      · exact ⟨_, hmem, howes (hmn ▸ hmq)⟩
      · exact ⟨m, mem_set_of_ne _ hk hm hmn, hmq⟩
    unfold Live.Promises
    rw [hwaker]
    refine Promise.step hp (fun s hs hup => ?_) howed
      fun he => ⟨hreset he.1, he.2⟩
    have hsq := checked_sub hchecked s hs
    rcases hraise s q hsq hup with hold | hnew | ⟨hr, hhalf⟩
    · exact .inl hold
    · exact .inr (.inl ⟨_, hmem, hnew⟩)
    -- a second reset closed a half: the poll has seen the first, or will
    · by_cases hseen : .reset ∈ cs
      · rcases hp.kept .reset hseen hr with ho | hn | he
        · exact .inr (.inl (howed ho))
        · exact .inr (.inr (.inl hn))
        · exact absurd hseen he.2.2
      · exact .inr (.inr (.inr ⟨hreset hr, Point.reset_mem hsq hhalf, hseen⟩))
  · exact h.bounded.mono fun _ _ => n.next_keeps spurious

end Step

/-- **Every turn keeps every promise.** -/
theorem Kept.step {x : Polled} (h : Kept x) (t : Turn) : Kept (x.step t) := by
  cases t with
  | startAcquire desired =>
      have hstart : Kept { x with acquire := .closedCheck desired } :=
        h.start .window rfl rfl (fun _ => checked_of_ne_window) rfl h.bounded
      simp only [Polled.step]
      split
      · exact hstart
      · exact hstart
      · exact h
  | acquire spurious =>
      have hpolls := Live.polls_acquireNext spurious x.live x.acquire
      exact h.poll .window hpolls rfl (fun _ => checked_of_ne_window)
        (fun _ => Live.promises_acquireNext spurious (h.promises .window))
        (h.bounded_poll hpolls (by decide))
  | startRead remaining =>
      have hnone : (ReadPc.start remaining).checked = none := by
        unfold ReadPc.start
        split <;> rfl
      have hstart : Kept { x with read := .start remaining } :=
        h.start .recv rfl rfl (fun _ => checked_of_ne_recv) hnone
          (ReadPc.bounded_start _ _)
      simp only [Polled.step]
      split
      · exact hstart
      · exact hstart
      · exact h
  | read =>
      exact h.poll .recv (Live.polls_readNext x.live x.read) rfl
        (fun _ => checked_of_ne_recv)
        (fun _ => Live.promises_readNext (h.promises .recv)) h.bounded.next
  | startAck =>
      have hstart : Kept { x with ack := .ackCheck } :=
        h.start .ack rfl rfl (fun _ => checked_of_ne_ack) rfl h.bounded
      simp only [Polled.step]
      split
      · exact hstart
      · exact hstart
      · exact h
  | ack =>
      have hpolls := Live.polls_ackNext x.live x.ack
      exact h.poll .ack hpolls rfl (fun _ => checked_of_ne_ack)
        (fun _ => Live.promises_ackNext (h.promises .ack))
        (h.bounded_poll hpolls (by decide))
  | notify n =>
      refine ⟨?_, fun q cs hcs => ?_, h.bounded⟩
      · exact forall_concat h.notifiers (Notifier.ok_start x.live n)
      · have hchecked : x.checked q = some cs := by cases q <;> exact hcs
        refine (h.promises q cs hchecked).frame (fun _ hs => hs) (fun hr => hr)
          rfl ?_
        rintro ⟨m, hm, hmq⟩
        exact ⟨m, List.mem_append_left _ hm, hmq⟩
  | go k spurious =>
      simp only [Polled.step]
      split
      · exact h
      · rename_i n hk
        exact h.go hk spurious

/-- A stream and its polls after some turns. -/
def after (s : StreamInner) (turns : List Turn) : Polled :=
  run step (new s) turns

theorem kept_after (s : StreamInner) (turns : List Turn) :
    Kept (after s turns) :=
  run_invariant_all step (fun _ t h => h.step t) turns _ (kept_new s)

/-- A poll that waits without being notified or owed a wake-up waits for
signals that are all down. -/
theorem Kept.down {x : Polled} (h : Kept x) {q : Point}
    (hchecked : x.checked q = some q.signals)
    (hnotified : (x.live.wakers q).notified = false)
    (howed : ∀ n ∈ x.notifiers, n.owes q = false) :
    ∀ s ∈ q.signals, x.live.up s = false := by
  intro s hs
  have hnot : ¬ x.Owed q := by
    rintro ⟨n, hn, hq⟩
    cases (howed n hn).symm.trans hq
  have hdown := Promise.down (h.promises q _ hchecked) hnot hnotified
    (fun he => he.2.2 he.2.1) s hs
  simpa using hdown

/-- **No lost wake-up at any of the three wait points.**  Polls and any number
of calls that notify take their steps in any order.  Whenever a poll has
returned `Pending`, was not notified since it registered, and no call is
between a change and its wake-up there, the condition waited for is false: no
credit and the window not closed; no bytes, the read half open and no reset;
no `ACK`, no reset and the write half open.  And `poll_read` never makes a
third pass through its loop. -/
theorem no_lost_wakeup (s : StreamInner) (turns : List Turn) :
    let x := after s turns
    (x.acquire = .done .pending → (x.live.wakers .window).notified = false →
      (∀ n ∈ x.notifiers, n.owes .window = false) →
      x.live.inner.sendWindow.available = 0 ∧
        x.live.inner.sendWindow.closed = false) ∧
    (x.read = .done .pending → (x.live.wakers .recv).notified = false →
      (∀ n ∈ x.notifiers, n.owes .recv = false) →
      x.live.inner.recv.contents = [] ∧
        x.live.inner.state.readOpen = true ∧
        x.live.inner.state.reset = false) ∧
    (x.ack = .done .pending → (x.live.wakers .ack).notified = false →
      (∀ n ∈ x.notifiers, n.owes .ack = false) →
      x.live.inner.ackReceived = false ∧
        x.live.inner.state.reset = false ∧
        x.live.inner.state.writeOpen = true) ∧
    x.read.pass ≤ 2 := by
  intro x
  have h : Kept x := kept_after s turns
  refine ⟨fun hpc hn ho => ?_, fun hpc hn ho => ?_, fun hpc hn ho => ?_,
    h.bounded.pass_le⟩
  · have hchecked : x.checked .window = some Point.window.signals := by
      show x.acquire.checked = _
      rw [hpc]
      rfl
    have hdown := h.down hchecked hn ho
    have hcredit := hdown .credit (by decide)
    have hclosed := hdown .closed (by decide)
    exact ⟨by simpa [Live.up] using hcredit, hclosed⟩
  · have hchecked : x.checked .recv = some Point.recv.signals := by
      show x.read.checked = _
      rw [hpc]
      rfl
    have hdown := h.down hchecked hn ho
    have hbytes := hdown .bytes (by decide)
    have hshut := hdown .readShut (by decide)
    have hreset := hdown .reset (by decide)
    refine ⟨?_, by simpa [Live.up] using hshut, hreset⟩
    rw [← RecvBuffer.isEmpty_iff]
    simpa [Live.up] using hbytes
  · have hchecked : x.checked .ack = some Point.ack.signals := by
      show x.ack.checked = _
      rw [hpc]
      rfl
    have hdown := h.down hchecked hn ho
    have hacked := hdown .acked (by decide)
    have hreset := hdown .reset (by decide)
    have hshut := hdown .writeShut (by decide)
    exact ⟨hacked, hreset, by simpa [Live.up] using hshut⟩

/-- A payload and a grant arrive just after a read and a write have registered,
and end their polls; both are polled again, and then all three polls wait. -/
def threeWaits : List Turn :=
  [[.notify (.pushData [7]), .notify (.grant 2)],
    .startRead 4 :: List.replicate 4 .read, [.go 0 false],
    List.replicate 4 .read, [.go 0 false],
    .startAcquire 2 :: List.replicate 3 (.acquire false),
    List.replicate 2 (.go 1 false), List.replicate 3 (.acquire false),
    [.go 1 false],
    .startRead 4 :: List.replicate 7 .read,
    .startAcquire 2 :: List.replicate 5 (.acquire false),
    .startAck :: List.replicate 7 .ack].flatten

theorem no_lost_wakeup_threeWaits :
    let x := after { StreamInner.new 1 .locally Config.default with
      sendWindow := ⟨0, false⟩ } threeWaits
    x.live.inner.sendWindow.available = 0 ∧
      x.live.inner.recv.contents = [] ∧ x.live.inner.ackReceived = false := by
  obtain ⟨hacquire, hread, hack, -⟩ := no_lost_wakeup
    { StreamInner.new 1 .locally Config.default with sendWindow := ⟨0, false⟩ }
    threeWaits
  exact ⟨(hacquire (by decide +kernel) (by decide +kernel)
      (by decide +kernel)).1,
    (hread (by decide +kernel) (by decide +kernel) (by decide +kernel)).1,
    (hack (by decide +kernel) (by decide +kernel) (by decide +kernel)).1⟩

end Polled

end NetMux
