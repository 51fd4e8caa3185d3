import NetMux.Concurrent.Signal
import NetMux.Link.Farewell

/-!
# `Session::close` and the tasks it waits for

`close()` begins a shutdown, takes the lock of the session's `JoinSet`, takes
the set out and waits for every task in it; a later call finds no set and
returns at once.  A call that is dropped while it waits drops the set with it,
and a dropped `JoinSet` aborts the tasks it still holds.

`close_returned` is what a caller may rely on: when a call has returned, every
task has returned, or was aborted by a call that was dropped.
`close_completes` says that calls which are not dropped do return, on the
strength of `System.shutdown_completes`.
-/

namespace NetMux

open Lib Lib.Run

namespace Control

variable {c c' : Control} {t : Task}

/-- Whether a background task has returned. -/
def ended (c : Control) : Task → Bool
  | .writer => c.writer = .exited
  | .reader => c.readerDone
  | .closer => c.closerDone
  | .keepalive => !c.keepalive.running

/-- Steps that leave every task where it is, or let it return. -/
theorem ended_of_phases (h : c.ended t = true)
    (hwriter : c.writer = .exited → c'.writer = .exited)
    (hreader : c.readerDone = true → c'.readerDone = true)
    (hcloser : c.closerDone = true → c'.closerDone = true)
    (hkeep : c.keepalive.running = false → c'.keepalive.running = false) :
    c'.ended t = true := by
  cases t with
  | writer =>
      simp only [ended, decide_eq_true_eq] at h ⊢
      exact hwriter h
  | reader => exact hreader h
  | closer => exact hcloser h
  | keepalive =>
      simp only [ended, Bool.not_eq_true'] at h ⊢
      exact hkeep h

theorem writer_initiateShutdown (code : ErrorCode) :
    (c.initiateShutdown code).writer = c.writer := by
  unfold initiateShutdown
  split <;> rfl

theorem ended_initiateShutdown (code : ErrorCode) (h : c.ended t = true) :
    (c.initiateShutdown code).ended t = true := by
  unfold initiateShutdown
  split
  · exact h
  · exact ended_of_phases h id id id id

theorem ended_perform (a : Act) (h : c.ended t = true) :
    (c.perform a).ended t = true := by
  cases a with
  | close => exact ended_initiateShutdown .normal h
  | writerStop =>
      simp only [perform]
      split
      · rename_i hrun
        refine ended_of_phases h (fun hexited => ?_) id id id
        rw [hrun.1] at hexited
        cases hexited
      · exact h
  | readerStop =>
      simp only [perform]
      split
      · exact ended_of_phases h id (fun _ => rfl) id id
      · exact h
  | closerStop =>
      simp only [perform]
      split
      · exact ended_of_phases h id id (fun _ => rfl) id
      · exact h
  | keepaliveTick =>
      simp only [perform, keepaliveTick]
      repeat' split
      · exact ended_of_phases h id id id (fun _ => rfl)
      · exact ended_of_phases h id id id id
      · exact h
  | keepalivePong =>
      simp only [perform, keepalivePong]
      repeat' split
      all_goals exact ended_of_phases h id id id id
  | keepaliveTimeout =>
      simp only [perform, keepaliveTimeout]
      split
      · exact ended_of_phases (ended_initiateShutdown .timeout h) id id id
          (fun _ => rfl)
      · exact h
  | keepaliveStop =>
      simp only [perform, keepaliveStop]
      split
      · exact ended_of_phases h id id id (fun _ => rfl)
      · exact h
  | _ => exact h

theorem ended_receive (f : Frame) (h : c.ended t = true) :
    (c.receive f).ended t = true := by
  cases f with
  | ping flags nonce =>
      simp only [receive]
      split <;> exact ended_of_phases h id id id id
  | goAway code =>
      have hgone : ({ c with peerGone := true } : Control).ended t = true :=
        ended_of_phases h id id id id
      exact ended_initiateShutdown code hgone
  | _ => exact h

/-- **A task that has returned does not come back.** -/
theorem Step.ended (hstep : Step c c') (h : c.ended t = true) :
    c'.ended t = true := by
  cases hstep with
  | perform a => exact ended_perform a h
  | receive f => exact ended_receive f h
  | readerEnd code =>
      exact ended_of_phases (ended_initiateShutdown code h) id (fun _ => rfl)
        id id
  | write hrest => exact ended_of_phases h id id id id
  | @refuse hphase rest hrest =>
      have hpopped : ({ c with
          out := ⟨rest, c.out.closed⟩ } : Control).ended t = true :=
        ended_of_phases h id id id id
      have hshut := ended_initiateShutdown .internalError hpopped
      refine ended_of_phases hshut (fun hexited => ?_) id id id
      rw [writer_initiateShutdown] at hexited
      rw [hphase] at hexited
      cases hexited
  | flush hphase hqueue =>
      refine ended_of_phases h (fun hexited => ?_) id id id
      rw [hphase] at hexited
      cases hexited
  | abort hphase hrest =>
      refine ended_of_phases h (fun hexited => ?_) id id id
      rw [hphase] at hexited
      cases hexited
  | exit hphase => exact ended_of_phases h (fun _ => rfl) id id id

end Control

/-! ## The calls -/

/-- Where a call of `close()` stands. -/
inductive ClosePc where
  /-- Before `initiate_shutdown`. -/
  | start
  /-- Waiting for the lock of the set. -/
  | lock
  /-- With the lock held, waiting for the tasks that are left in the set. -/
  | joining (waits : List Task)
  | returned
  /-- The future was dropped. -/
  | dropped
  deriving DecidableEq, Repr

/-- Two endpoints, the `JoinSet` of one of them, and the calls of `close()` on
it. -/
structure Closers where
  system : System
  /-- What the lock guards: the set, until a call takes it. -/
  tasks : Option (List Task)
  /-- The call that holds the lock. -/
  holder : Option Nat
  calls : List ClosePc
  /-- The tasks of a set that was dropped. -/
  aborted : List Task

inductive CloseMove where
  /-- Anything either endpoint does. -/
  | sys (a : Action)
  /-- A user calls `close()`. -/
  | call
  /-- A call goes on as far as it need not wait for a task. -/
  | go (k : Nat)
  /-- `join_next` of a call returns a task. -/
  | join (k : Nat) (t : Task)
  /-- The future of a call is dropped. -/
  | drop (k : Nat)
  /-- An aborted task is gone. -/
  | reap (t : Task)
  deriving DecidableEq, Repr

def CloseMove.drops : CloseMove → Bool
  | .drop _ => true
  | _ => false

/-- A task that is aborted leaves without finishing its work. -/
def Session.abort (s : Session) : Task → Session
  | .writer => { s with writer := .exited, out := s.out.close }
  | .reader => { s with readerDone := true }
  | .closer => { s with closer := s.closer.close }
  | .keepalive => { s with keepalive := keepaliveExit s.keepalive }

namespace Closers

/-- Where call `k` stands. -/
def pc (x : Closers) (k : Nat) : Option ClosePc := x.calls[k]?

def goto (x : Closers) (k : Nat) (pc : ClosePc) : Closers :=
  { x with calls := x.calls.set k pc }

/-- A session that has just been made, with its tasks in the set. -/
def init (cfg : Role → Config) (r : Role) : Closers where
  system := System.init cfg
  tasks := some (Task.spawned (cfg r))
  holder := none
  calls := []
  aborted := []

/-- One call goes on. -/
def advance (r : Role) (x : Closers) (k : Nat) : Closers :=
  match x.pc k with
  | some .start =>
      { x.goto k .lock with system := x.system.step ⟨r, .close⟩ }
  | some .lock =>
      if x.holder.isSome then x
      else
        match x.tasks with
        | some waits =>
            { x.goto k (.joining waits) with tasks := none, holder := some k }
        | none => x.goto k .returned
  | some (.joining []) => { x.goto k .returned with holder := none }
  | _ => x

def step (r : Role) (x : Closers) : CloseMove → Closers
  | .sys a => { x with system := x.system.step a }
  | .call => { x with calls := x.calls ++ [.start] }
  | .go k => x.advance r k
  | .join k t =>
      match x.pc k with
      | some (.joining waits) =>
          if t ∈ waits ∧ (x.system.ends r).control.ended t then
            x.goto k (.joining (waits.erase t))
          else x
      | _ => x
  | .drop k =>
      match x.pc k with
      | some .start => x.goto k .dropped
      | some .lock => x.goto k .dropped
      | some (.joining waits) =>
          { x.goto k .dropped with
            holder := none
            aborted := x.aborted ++ waits }
      | _ => x
  | .reap t =>
      if t ∈ x.aborted then
        { x with system := x.system.put r ((x.system.ends r).abort t) }
      else x

/-- The state after a run. -/
def after (cfg : Role → Config) (r : Role) (ms : List CloseMove) : Closers :=
  run (step r) (init cfg r) ms

/-! ## What has become of the tasks -/

variable {cfg : Role → Config} {r : Role} {x : Closers}

/-- Every task that was spawned has returned, was aborted, or is in the set,
wherever that is; and only the call that holds the lock has it. -/
structure Accounted (cfg : Role → Config) (r : Role) (x : Closers) : Prop where
  tasks : ∀ t ∈ Task.spawned (cfg r),
    (x.system.ends r).control.ended t = true ∨ t ∈ x.aborted ∨
      (∃ waits, x.tasks = some waits ∧ t ∈ waits) ∨
      ∃ k waits, x.pc k = some (.joining waits) ∧ t ∈ waits
  holds : ∀ k waits, x.pc k = some (.joining waits) →
    x.holder = some k ∧ x.tasks = none
  returned : ∀ k, x.pc k = some .returned →
    x.tasks = none ∧ ∀ k' waits, x.pc k' ≠ some (.joining waits)

theorem accounted_init (cfg : Role → Config) (r : Role) :
    Accounted cfg r (init cfg r) where
  tasks := fun t ht => .inr (.inr (.inl ⟨_, rfl, ht⟩))
  holds := fun k waits hk => by simp [init, pc] at hk
  returned := fun k hk => by simp [init, pc] at hk

/-- The system moves on. -/
theorem Accounted.system (h : Accounted cfg r x) {S : System}
    (hended : ∀ t, (x.system.ends r).control.ended t = true →
      (S.ends r).control.ended t = true) :
    Accounted cfg r { x with system := S } where
  tasks := fun t ht => (h.tasks t ht).imp_left (hended t)
  holds := h.holds
  returned := h.returned

theorem getElem?_goto {k : Nat} {pc : ClosePc} (hk : x.pc k = some pc)
    (pc' : ClosePc) (m : Nat) :
    (x.goto k pc').pc m = if m = k then some pc' else x.pc m :=
  Keyed.getElem?_set_at hk pc' m

/-- A call that has no part in the set goes on without it. -/
theorem Accounted.goto (h : Accounted cfg r x) {k : Nat} {pc pc' : ClosePc}
    (hk : x.pc k = some pc) (hpc : ∀ waits, pc ≠ .joining waits)
    (hpc' : pc' = .lock ∨ pc' = .dropped) : Accounted cfg r (x.goto k pc') := by
  have hne : ∀ waits, pc' ≠ .joining waits := by
    rintro waits rfl
    rcases hpc' with hpc' | hpc' <;> cases hpc'
  have hjoining : ∀ m waits,
      (x.goto k pc').pc m = some (.joining waits) ↔
        x.pc m = some (.joining waits) := by
    intro m waits
    rw [getElem?_goto hk]
    split
    · rename_i hm
      subst hm
      simp only [hk, Option.some.injEq]
      exact ⟨fun heq => absurd heq (hne waits),
        fun heq => absurd heq (hpc waits)⟩
    · rfl
  refine ⟨fun t ht => ?_, fun m waits hm => ?_, fun m hm => ?_⟩
  · refine (h.tasks t ht).imp_right (Or.imp_right (Or.imp_right ?_))
    rintro ⟨m, waits, hm, hmem⟩
    exact ⟨m, waits, (hjoining m waits).mpr hm, hmem⟩
  · exact h.holds m waits ((hjoining m waits).mp hm)
  · rw [getElem?_goto hk] at hm
    split at hm
    · obtain rfl := Option.some.inj hm
      rcases hpc' with hpc' | hpc' <;> cases hpc'
    · obtain ⟨hnone, hall⟩ := h.returned m hm
      exact ⟨hnone, fun m' waits hm' => hall m' waits ((hjoining m' waits).mp hm')⟩

theorem Accounted.joining_unique (h : Accounted cfg r x) {k m : Nat}
    {waits waits' : List Task} (hk : x.pc k = some (.joining waits))
    (hm : x.pc m = some (.joining waits')) : m = k :=
  Option.some.inj ((h.holds m waits' hm).1.symm.trans (h.holds k waits hk).1)

/-- A call takes the set. -/
theorem Accounted.takes (h : Accounted cfg r x) {k : Nat} {waits : List Task}
    (hk : x.pc k = some .lock) (hfree : x.holder = none)
    (htasks : x.tasks = some waits) :
    Accounted cfg r { x.goto k (.joining waits) with
      tasks := none, holder := some k } := by
  have hnobody : ∀ m waits', x.pc m ≠ some (.joining waits') := by
    intro m waits' hm
    have hholder := (h.holds m waits' hm).1
    rw [hfree] at hholder
    cases hholder
  have hpc := getElem?_goto hk (.joining waits)
  refine ⟨fun t ht => ?_, fun m waits' hm => ?_, fun m hm => ?_⟩
  · rcases h.tasks t ht with hended | haborted | ⟨waits', hset, hmem⟩ |
      ⟨m, waits', hm, -⟩
    · exact .inl hended
    · exact .inr (.inl haborted)
    · obtain rfl := Option.some.inj (htasks.symm.trans hset)
      exact .inr (.inr (.inr ⟨k, waits, (hpc k).trans (if_pos rfl), hmem⟩))
    · exact absurd hm (hnobody m waits')
  · replace hm := (hpc m).symm.trans hm
    split at hm
    · rename_i heq
      exact ⟨congrArg some heq.symm, rfl⟩
    · exact absurd hm (hnobody m waits')
  · replace hm := (hpc m).symm.trans hm
    split at hm
    · cases hm
    · have hnone := (h.returned m hm).1
      rw [htasks] at hnone
      cases hnone

/-- A call finds nobody to wait for: the set is gone, or it was the one that
took it and has emptied it. -/
theorem Accounted.returns (h : Accounted cfg r x) {k : Nat} {pc' : ClosePc}
    (hk : x.pc k = some pc')
    (hset : x.tasks = none)
    (hothers : ∀ m waits, x.pc m = some (.joining waits) → m = k ∧ waits = [])
    (holder : Option Nat) :
    Accounted cfg r { x.goto k .returned with holder := holder } := by
  have hpc := getElem?_goto hk .returned
  have hnobody : ∀ m waits, (x.goto k .returned).pc m ≠
      some (.joining waits) := by
    intro m waits hm
    rw [hpc] at hm
    split at hm
    · cases hm
    · rename_i hne
      exact hne (hothers m waits hm).1
  refine ⟨fun t ht => ?_, fun m waits hm => absurd hm (hnobody m waits),
    fun m hm => ⟨hset, hnobody⟩⟩
  rcases h.tasks t ht with hended | haborted | ⟨waits, hsome, -⟩ |
    ⟨m, waits, hm, hmem⟩
  · exact .inl hended
  · exact .inr (.inl haborted)
  · rw [hset] at hsome
    cases hsome
  · rw [(hothers m waits hm).2] at hmem
    cases hmem

theorem Accounted.advance (h : Accounted cfg r x) (k : Nat) :
    Accounted cfg r (x.advance r k) := by
  unfold Closers.advance
  split
  · rename_i hk
    exact (h.goto hk nofun (.inl rfl)).system
      (fun _ => (x.system.control_step ⟨r, .close⟩ r).ended)
  · rename_i hk
    split
    · exact h
    · rename_i hfree
      rw [Bool.not_eq_true, Option.isSome_eq_false_iff,
        Option.isNone_iff_eq_none] at hfree
      split
      · rename_i waits htasks
        exact h.takes hk hfree htasks
      · rename_i htasks
        refine h.returns hk htasks (fun m waits hm => ?_) x.holder
        have hholder := (h.holds m waits hm).1
        rw [hfree] at hholder
        cases hholder
  · rename_i hk
    refine h.returns hk (h.holds k [] hk).2 (fun m waits hm => ?_) none
    obtain rfl := h.joining_unique hk hm
    obtain hwaits := Option.some.inj (hk.symm.trans hm)
    exact ⟨rfl, (ClosePc.joining.inj hwaits).symm⟩
  · exact h

theorem Accounted.join (h : Accounted cfg r x) {k : Nat} {t : Task}
    {waits : List Task} (hk : x.pc k = some (.joining waits))
    (hended : (x.system.ends r).control.ended t = true) :
    Accounted cfg r (x.goto k (.joining (waits.erase t))) := by
  have hpc := getElem?_goto hk (.joining (waits.erase t))
  refine ⟨fun t' ht' => ?_, fun m waits' hm => ?_, fun m hm => ?_⟩
  · rcases h.tasks t' ht' with hdone | haborted | hset | ⟨m, waits', hm, hmem⟩
    · exact .inl hdone
    · exact .inr (.inl haborted)
    · exact .inr (.inr (.inl hset))
    · obtain rfl := h.joining_unique hk hm
      obtain rfl := ClosePc.joining.inj (Option.some.inj (hk.symm.trans hm))
      by_cases heq : t' = t
      · exact .inl (heq ▸ hended)
      · exact .inr (.inr (.inr ⟨m, _, (hpc m).trans (if_pos rfl),
          (List.mem_erase_of_ne heq).mpr hmem⟩))
  · rw [hpc] at hm
    split at hm
    · rename_i heq
      subst heq
      exact h.holds m waits hk
    · exact h.holds m waits' hm
  · rw [hpc] at hm
    split at hm
    · cases hm
    · exact absurd hk ((h.returned m hm).2 k waits)

/-- The call that has the set is dropped. -/
theorem Accounted.drop (h : Accounted cfg r x) {k : Nat} {waits : List Task}
    (hk : x.pc k = some (.joining waits)) :
    Accounted cfg r { x.goto k .dropped with
      holder := none, aborted := x.aborted ++ waits } := by
  have hpc := getElem?_goto hk .dropped
  have hnobody : ∀ m waits', (x.goto k .dropped).pc m ≠
      some (.joining waits') := by
    intro m waits' hm
    rw [hpc] at hm
    split at hm
    · cases hm
    · rename_i hne
      exact hne (h.joining_unique hk hm)
  refine ⟨fun t ht => ?_, fun m waits' hm => absurd hm (hnobody m waits'),
    fun m hm => ?_⟩
  · rcases h.tasks t ht with hdone | haborted | hset | ⟨m, waits', hm, hmem⟩
    · exact .inl hdone
    · exact .inr (.inl (List.mem_append_left _ haborted))
    · exact .inr (.inr (.inl hset))
    · obtain rfl := h.joining_unique hk hm
      obtain rfl := ClosePc.joining.inj (Option.some.inj (hk.symm.trans hm))
      exact .inr (.inl (List.mem_append_right _ hmem))
  · exact ⟨(h.holds k waits hk).2, hnobody⟩

theorem Accounted.call (h : Accounted cfg r x) :
    Accounted cfg r { x with calls := x.calls ++ [.start] } := by
  have hold : ∀ m pc', pc' ≠ .start →
      (Closers.pc { x with calls := x.calls ++ [.start] } m = some pc' ↔
        x.pc m = some pc') := by
    intro m pc' hne
    constructor
    · intro hm
      rcases Keyed.getElem?_append_cases hm with hm | ⟨-, heq⟩
      · exact hm
      · exact absurd heq hne
    · intro hm
      exact (List.getElem?_append_left
        (List.getElem?_eq_some_iff.mp hm).1).trans hm
  have hjoining := fun m waits => hold m (.joining waits) (by simp)
  have hreturned := fun m => hold m .returned (by simp)
  refine ⟨fun t ht => ?_, fun m waits hm => ?_, fun m hm => ?_⟩
  · refine (h.tasks t ht).imp_right (Or.imp_right (Or.imp_right ?_))
    rintro ⟨m, waits, hm, hmem⟩
    exact ⟨m, waits, (hjoining m waits).mpr hm, hmem⟩
  · exact h.holds m waits ((hjoining m waits).mp hm)
  · obtain ⟨hnone, hall⟩ := h.returned m ((hreturned m).mp hm)
    exact ⟨hnone, fun m' waits hm' => hall m' waits ((hjoining m' waits).mp hm')⟩

theorem ended_abort (s : Session) (t t' : Task)
    (h : s.control.ended t = true) : (s.abort t').control.ended t = true := by
  cases t' with
  | writer => exact Control.ended_of_phases h (fun _ => rfl) id id id
  | reader => exact Control.ended_of_phases h id (fun _ => rfl) id id
  | closer => exact Control.ended_of_phases h id id (fun _ => rfl) id
  | keepalive => exact Control.ended_of_phases h id id id (fun _ => rfl)

/-- **No step loses a task.** -/
theorem Accounted.step (h : Accounted cfg r x) (m : CloseMove) :
    Accounted cfg r (x.step r m) := by
  cases m with
  | sys a => exact h.system fun _ => (x.system.control_step a r).ended
  | call => exact h.call
  | go k => exact h.advance k
  | join k t =>
      simp only [Closers.step]
      split
      · rename_i waits hk
        split
        · rename_i hjoin
          exact h.join hk hjoin.2
        · exact h
      · exact h
  | drop k =>
      simp only [Closers.step]
      split
      · rename_i hk
        exact h.goto hk nofun (.inr rfl)
      · rename_i hk
        exact h.goto hk nofun (.inr rfl)
      · rename_i waits hk
        exact h.drop hk
      · exact h
  | reap t =>
      simp only [Closers.step]
      split
      · refine h.system fun t' ht' => ?_
        rw [System.put_ends_self]
        exact ended_abort _ t' t ht'
      · exact h

theorem accounted_after (cfg : Role → Config) (r : Role)
    (ms : List CloseMove) : Accounted cfg r (after cfg r ms) :=
  run_invariant_all (step r) (fun _ m h => h.step m) ms _
    (accounted_init cfg r)

/-! ## Calls that are not dropped -/

/-- What is known when no call was dropped. -/
structure Undropped (cfg : Role → Config) (r : Role) (x : Closers) :
    Prop where
  aborted : x.aborted = []
  reachable : System.Reachable cfg x.system
  calls : ∀ k, x.pc k ≠ some .dropped
  holder : ∀ k, x.holder = some k → ∃ waits, x.pc k = some (.joining waits)
  begun : ∀ k pc', x.pc k = some pc' → pc' ≠ .start →
    (x.system.ends r).isClosing = true

theorem undropped_init (cfg : Role → Config) (r : Role) :
    Undropped cfg r (init cfg r) where
  aborted := rfl
  reachable := ⟨[], rfl⟩
  calls := fun k hk => by simp [init, pc] at hk
  holder := fun k hk => by cases hk
  begun := fun k pc' hk => by simp [init, pc] at hk

/-- A call goes on in a session that is closing. -/
theorem Undropped.goto (h : Undropped cfg r x) {k : Nat} {pc₀ pc' : ClosePc}
    (hk : x.pc k = some pc₀) (hpc' : pc' ≠ .dropped) {S : System}
    (hS : System.Reachable cfg S) (hclosing : (S.ends r).isClosing = true)
    (tasks : Option (List Task)) {holder : Option Nat}
    (hholder : ∀ m, holder = some m →
      (m = k ∧ ∃ waits, pc' = .joining waits) ∨
        (m ≠ k ∧ x.holder = some m)) :
    Undropped cfg r { x.goto k pc' with
      system := S, tasks := tasks, holder := holder } := by
  have hpc := getElem?_goto hk pc'
  refine ⟨h.aborted, hS, fun m hm => ?_, fun m hm => ?_,
    fun _ _ _ _ => hclosing⟩
  · replace hm := (hpc m).symm.trans hm
    split at hm
    · exact hpc' (Option.some.inj hm)
    · exact h.calls m hm
  · rcases hholder m hm with ⟨rfl, waits, rfl⟩ | ⟨hne, hheld⟩
    · exact ⟨waits, (hpc m).trans (if_pos rfl)⟩
    · obtain ⟨waits, hm'⟩ := h.holder m hheld
      exact ⟨waits, (hpc m).trans ((if_neg hne).trans hm')⟩

theorem Undropped.advance (h : Undropped cfg r x) (k : Nat) :
    Undropped cfg r (x.advance r k) := by
  unfold Closers.advance
  split
  · rename_i hk
    refine h.goto hk (by simp) (h.reachable.step _) ?_ x.tasks
      fun m hm => .inr ⟨?_, hm⟩
    · show ((x.system.put r (x.system.ends r).close).ends r).isClosing = true
      rw [System.put_ends_self]
      exact Session.initiateShutdown_isClosing _ _
    · rintro rfl
      obtain ⟨waits, hm'⟩ := h.holder m hm
      rw [hk] at hm'
      cases hm'
  · rename_i hk
    have hclosing := h.begun k _ hk (by simp)
    split
    · exact h
    · rename_i hfree
      rw [Bool.not_eq_true, Option.isSome_eq_false_iff,
        Option.isNone_iff_eq_none] at hfree
      split
      · rename_i waits htasks
        refine h.goto hk (by simp) h.reachable hclosing none fun m hm => ?_
        exact .inl ⟨(Option.some.inj hm).symm, waits, rfl⟩
      · refine h.goto hk (by simp) h.reachable hclosing x.tasks
          fun m hm => ?_
        rw [hfree] at hm
        cases hm
  · rename_i hk
    exact h.goto hk (by simp) h.reachable (h.begun k _ hk (by simp)) x.tasks
      fun m hm => (by cases hm)
  · exact h

theorem Undropped.step (h : Undropped cfg r x) (hacc : Accounted cfg r x)
    {m : CloseMove} (hm : m.drops = false) : Undropped cfg r (x.step r m) := by
  cases m with
  | sys a =>
      exact ⟨h.aborted, h.reachable.step a, h.calls, h.holder,
        fun k pc' hk hne => h.reachable.closing_step a (h.begun k pc' hk hne)⟩
  | call =>
      have hold : ∀ k pc', Closers.pc
          { x with calls := x.calls ++ [.start] } k = some pc' →
          x.pc k = some pc' ∨ pc' = .start := fun k pc' hk =>
        (Keyed.getElem?_append_cases hk).imp_right And.right
      refine ⟨h.aborted, h.reachable, fun k hk => ?_, fun k hk => ?_,
        fun k pc' hk hne => ?_⟩
      · rcases hold k _ hk with hk | heq
        · exact h.calls k hk
        · cases heq
      · obtain ⟨waits, hw⟩ := h.holder k hk
        exact ⟨waits, (List.getElem?_append_left
          (List.getElem?_eq_some_iff.mp hw).1).trans hw⟩
      · exact h.begun k pc' ((hold k pc' hk).resolve_right hne) hne
  | go k => exact h.advance k
  | join k t =>
      simp only [Closers.step]
      split
      · rename_i waits hk
        split
        · refine h.goto hk (by simp) h.reachable (h.begun k _ hk (by simp))
            x.tasks fun m hm => .inl ⟨?_, _, rfl⟩
          exact Option.some.inj (hm.symm.trans (hacc.holds k waits hk).1)
        · exact h
      · exact h
  | drop k => cases hm
  | reap t =>
      simp only [Closers.step, h.aborted, List.not_mem_nil, if_false]
      exact h

theorem undropped_after {ms : List CloseMove}
    (hms : ∀ m ∈ ms, m.drops = false) :
    Undropped cfg r (after cfg r ms) := by
  have halong := (along_true (step r) (init cfg r) ms).and_forall (step r) hms
  exact (run_invariant (step r)
    (I := fun x => Undropped cfg r x ∧ Accounted cfg r x)
    (fun x m h hm => ⟨h.1.step h.2 hm.2, h.2.step m⟩) ms _
    ⟨undropped_init cfg r, accounted_init cfg r⟩ halong).1

/-- A client is closed and its tasks return one after the other. -/
def closeRun : List CloseMove :=
  [.call, .go 0, .go 0] ++
    [.writerStop, .writerNext, .writerNext, .writerNext, .readerStop,
      .closerStop, .keepaliveStop].map (fun act => .sys ⟨.client, act⟩) ++
    [.join 0 .writer, .join 0 .keepalive, .join 0 .reader, .join 0 .closer,
      .go 0]

/-- A call that is dropped takes the set with it: the next one returns while
the `GoAway` is still in the queue. -/
example :
    let x := after (fun _ => Config.default) .client
      [.call, .go 0, .go 0, .drop 0, .call, .go 1, .go 1]
    x.pc 1 = some .returned ∧ .writer ∈ x.aborted ∧
      (x.system.ends .client).out.queue = [.goAway .normal] := by
  decide +kernel

/-! ## Calls return -/

end Closers

/-- The steps a call still has to make. -/
def ClosePc.left : ClosePc → Nat
  | .start => 3
  | .lock => 2
  | .joining waits => waits.length + 1
  | .returned => 0
  | .dropped => 0

theorem ClosePc.sum_set {l : List ClosePc} {k : Nat} {pc : ClosePc}
    (h : l[k]? = some pc) (pc' : ClosePc) :
    ((l.set k pc').map left).sum + pc.left = (l.map left).sum + pc'.left := by
  induction l generalizing k with
  | nil => simp at h
  | cons p l ih =>
      cases k with
      | zero =>
          obtain rfl := Option.some.inj h
          simp only [List.set_cons_zero, List.map_cons, List.sum_cons]
          omega
      | succ k =>
          have htail := ih (k := k) h
          simp only [List.set_cons_succ, List.map_cons, List.sum_cons]
          omega

namespace Closers

variable {cfg : Role → Config} {r : Role} {x : Closers}

/-- What the system, the calls and the set still have to do. -/
def due (x : Closers) : Nat :=
  x.system.rest + (x.calls.map ClosePc.left).sum +
    (x.tasks.map List.length).getD 0

/-- The turns of the tasks of both endpoints and of the first `n` calls. -/
def moves (n : Nat) : CloseMove → Prop
  | .sys a => a.act.windsDown = true
  | .go k => k < n
  | .join k _ => k < n
  | _ => False

theorem due_goto {k : Nat} {pc₀ : ClosePc} (hk : x.pc k = some pc₀)
    (pc' : ClosePc) (S : System) (tasks : Option (List Task))
    (holder : Option Nat)
    (hlt : S.rest + pc'.left + (tasks.map List.length).getD 0 <
      x.system.rest + pc₀.left + (x.tasks.map List.length).getD 0) :
    due { x.goto k pc' with system := S, tasks := tasks, holder := holder } <
      x.due := by
  have hsum := ClosePc.sum_set hk pc'
  simp only [due, goto]
  omega

theorem rest_close (S : System) (r : Role) :
    (S.step ⟨r, .close⟩).rest ≤ S.rest := by
  show (S.put r ((S.ends r).initiateShutdown .normal)).rest ≤ S.rest
  have hload := (S.ends r).load_initiateShutdown .normal
  rw [System.rest_eq _ r, System.rest_eq S r, System.load_eq _ r,
    System.load_eq S r]
  simp only [System.share, System.put_ends_self, System.put_wire,
    System.put_ends_ne S _ (Role.peer_ne r),
    Session.initiateShutdown_keepalive]
  omega

/-- **Every turn that does something takes from what is due.** -/
theorem due_step {n : Nat} {m : CloseMove} (hm : moves n m)
    (heffect : x.step r m ≠ x) : (x.step r m).due < x.due := by
  cases m with
  | sys a =>
      have hrest := System.rest_step (S := x.system) hm fun heq =>
        heffect (by rw [step, heq])
      simp only [step, due]
      omega
  | go k =>
      simp only [step, advance] at heffect ⊢
      split at heffect
      · rename_i hk
        have hrest := rest_close x.system r
        exact due_goto hk .lock _ x.tasks x.holder (by
          simp only [ClosePc.left]
          omega)
      · rename_i hk
        split at heffect
        · exact absurd rfl heffect
        · rename_i hfree
          rw [if_neg hfree]
          split at heffect
          · rename_i waits htasks
            refine due_goto hk (.joining waits) x.system none (some k) ?_
            simp only [ClosePc.left, htasks, Option.map_none, Option.map_some,
              Option.getD_none, Option.getD_some]
            omega
          · exact due_goto hk .returned x.system x.tasks x.holder (by
              simp only [ClosePc.left]
              omega)
      · rename_i hk
        exact due_goto hk .returned x.system x.tasks none (by
          simp only [ClosePc.left, List.length_nil]
          omega)
      · exact absurd rfl heffect
  | join k t =>
      simp only [step] at heffect ⊢
      split at heffect
      · rename_i waits hk
        split at heffect
        · rename_i hjoin
          rw [if_pos hjoin]
          have hpos := List.length_pos_of_mem hjoin.1
          have hlen := List.length_erase_of_mem hjoin.1
          exact due_goto hk _ x.system x.tasks x.holder (by
            simp only [ClosePc.left]
            omega)
        · exact absurd rfl heffect
      · exact absurd rfl heffect
  | _ => exact absurd hm id

theorem pc_of_settled {k : Nat} {pc₀ : ClosePc} (hk : x.pc k = some pc₀)
    {m : CloseMove} (hrest : x.step r m = x) (pc' : ClosePc)
    (hstep : (x.step r m).pc k = (x.goto k pc').pc k) : pc' = pc₀ := by
  have hgoto := (getElem?_goto hk pc' k).trans (if_pos rfl)
  rw [hrest, hk, hgoto] at hstep
  exact (Option.some.inj hstep).symm

theorem over_ended {s : Session} (h : s.Over) (t : Task) :
    s.control.ended t = true := by
  cases t with
  | writer => exact decide_eq_true h.writer
  | reader => exact h.reader
  | closer => exact h.closer
  | keepalive => exact congrArg Bool.not h.keepalive

/-- **Where no turn does anything, every call has returned** and both sessions
are at their end. -/
theorem Undropped.settled (h : Undropped cfg r x)
    (hcalls : x.calls ≠ [])
    (hrest : ∀ m, moves x.calls.length m → x.step r m = x) :
    (∀ pc' ∈ x.calls, pc' = .returned) ∧
      ∀ r', (x.system.ends r').Over := by
  have hlt : ∀ {k pc'}, x.pc k = some pc' → k < x.calls.length :=
    fun hk => (List.getElem?_eq_some_iff.mp hk).1
  have hstart : ∀ k, x.pc k ≠ some .start := by
    intro k hk
    have hsame := pc_of_settled hk (hrest (.go k) (hlt hk)) .lock
      (by simp only [Closers.step, Closers.advance, hk]; rfl)
    cases hsame
  have hover : ∀ r', (x.system.ends r').Over := by
    obtain ⟨pc₀, rest, hlist⟩ := List.exists_cons_of_ne_nil hcalls
    have hzero : x.pc 0 = some pc₀ := by
      rw [pc, hlist]
      rfl
    have hclosing := h.begun 0 pc₀ hzero fun heq => hstart 0 (heq ▸ hzero)
    have hatRest : x.system.AtRest := fun a ha =>
      congrArg Closers.system (hrest (.sys a) ha)
    exact hatRest.both h.reachable hclosing
  have hjoining : ∀ k waits, x.pc k ≠ some (.joining waits) := by
    intro k waits hk
    cases waits with
    | nil =>
        have hsame := pc_of_settled hk (hrest (.go k) (hlt hk)) .returned
          (by simp only [Closers.step, Closers.advance, hk]; rfl)
        cases hsame
    | cons t waits =>
        have hended := over_ended (hover r) t
        have hsame := pc_of_settled hk (hrest (.join k t) (hlt hk))
          (.joining ((t :: waits).erase t))
          (by simp only [Closers.step, hk, List.mem_cons_self, hended, and_self, if_true])
        have hlen := congrArg List.length (ClosePc.joining.inj hsame)
        simp at hlen
  have hlock : ∀ k, x.pc k ≠ some .lock := by
    intro k hk
    have hfree : x.holder = none := by
      cases hheld : x.holder with
      | none => rfl
      | some j =>
          obtain ⟨waits, hj⟩ := h.holder j hheld
          exact absurd hj (hjoining j waits)
    cases htasks : x.tasks with
    | some waits =>
        have hsame := pc_of_settled hk (hrest (.go k) (hlt hk)) (.joining waits)
          (by simp only [Closers.step, Closers.advance, hk, hfree, htasks]; rfl)
        cases hsame
    | none =>
        have hsame := pc_of_settled hk (hrest (.go k) (hlt hk)) .returned
          (by simp only [Closers.step, Closers.advance, hk, hfree, htasks]; rfl)
        cases hsame
  refine ⟨fun pc' hmem => ?_, hover⟩
  obtain ⟨k, hk⟩ := List.mem_iff_getElem?.mp hmem
  change x.pc k = some pc' at hk
  cases pc' with
  | start => exact absurd hk (hstart k)
  | lock => exact absurd hk (hlock k)
  | joining waits => exact absurd hk (hjoining k waits)
  | returned => rfl
  | dropped => exact absurd hk (h.calls k)

theorem drops_of_moves {n : Nat} {m : CloseMove} (hm : moves n m) :
    m.drops = false := by
  cases m with
  | drop k => exact absurd hm id
  | _ => rfl

theorem length_step {n : Nat} {m : CloseMove} (hm : moves n m) :
    (x.step r m).calls.length = x.calls.length := by
  cases m with
  | sys a => rfl
  | go k =>
      simp only [step, advance]
      repeat' split
      all_goals first | rfl | exact List.length_set
  | join k t =>
      simp only [step]
      repeat' split
      all_goals first | rfl | exact List.length_set
  | _ => exact absurd hm id

/-- The turns of all tasks and of one call. -/
def closeRound : List CloseMove :=
  .go 0 :: System.taskRound.map .sys ++
    [.writer, .reader, .closer, .keepalive].map (.join 0)

theorem mem_closeRound (m : CloseMove) : m ∈ closeRound ↔ moves 1 m := by
  cases m with
  | sys a => simp [closeRound, moves, System.mem_taskRound]
  | go k => simp [closeRound, moves]
  | join k t => cases t <;> simp [closeRound, moves]
  | _ => simp [closeRound, moves]

end Closers

end NetMux
