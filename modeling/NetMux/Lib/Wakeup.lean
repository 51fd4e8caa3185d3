import Mathlib.Init

/-!
# Waiting for a signal without losing the wake-up

A waiter that finds none of its signals up registers its waker, checks every
signal once more and only then waits.  A notifier raises a signal and wakes
the waiter after that.  Whatever happens in between, no wake-up is lost, and
the reason is one promise: of the signals the waiter has found down since it
registered, any that is up now was followed by a wake-up, or its notifier has
yet to wake.

`Promise` states it, with one more case: a signal may go up without a wake-up
of its own as long as the waiter is bound to notice something else
(`excused`).  The rules say how each step keeps it.
-/

namespace NetMux.Lib.Wakeup

/-- A slot for the waker of one task.  `register` stores the waker, `wake`
takes it out and notifies the task; what is kept is whether a waker is stored
and whether the task was notified since it last registered. -/
structure Waker where
  registered : Bool
  notified : Bool
  deriving DecidableEq, Repr

namespace Waker

def new : Waker := ⟨false, false⟩

def register (_ : Waker) : Waker := ⟨true, false⟩

def wake (w : Waker) : Waker := if w.registered then ⟨false, true⟩ else w

/-- The task will hear a wake-up, or has heard one. -/
def Armed (w : Waker) : Prop := w.registered = true ∨ w.notified = true

theorem Armed.wake {w : Waker} (h : w.Armed) : w.wake.notified = true := by
  unfold Waker.wake
  split
  · rfl
  · rename_i hr
    exact h.resolve_left hr

end Waker

section Promise

variable {S : Type}

/-- The signals in `checked` were found down after registering: any of them
that is up now was or will be followed by a wake-up. -/
structure Promise (up : S → Prop) (owed excused : Prop) (w : Waker)
    (checked : List S) : Prop where
  armed : w.Armed
  kept : ∀ s ∈ checked, up s → owed ∨ w.notified = true ∨ excused

variable {up up' : S → Prop} {owed owed' excused excused' : Prop}
  {w w' : Waker} {checked : List S}

/-- Registering promises nothing yet. -/
theorem Promise.register (up : S → Prop) (owed excused : Prop) (w : Waker) :
    Promise up owed excused w.register [] :=
  ⟨.inl rfl, fun _ hs => absurd hs List.not_mem_nil⟩

/-- One more signal is found down. -/
theorem Promise.check (h : Promise up owed excused w checked) {s : S}
    (hs : ¬ up s) : Promise up owed excused w (checked ++ [s]) := by
  refine ⟨h.armed, fun t ht htup => ?_⟩
  rcases List.mem_append.mp ht with ht | ht
  · exact h.kept t ht htup
  · rw [List.mem_singleton.mp ht] at htup
    exact absurd htup hs

/-- The waiter did notice that there is no excuse. -/
theorem Promise.refute (h : Promise up owed excused w checked)
    (hexcused : ¬ excused) : Promise up owed excused' w checked := by
  refine ⟨h.armed, fun s hs hup => ?_⟩
  rcases h.kept s hs hup with ho | hn | he
  · exact .inl ho
  · exact .inr (.inl hn)
  · exact absurd he hexcused

/-- A step that wakes nobody here: every signal that goes up is paid for. -/
theorem Promise.step (h : Promise up owed excused w checked)
    (hup : ∀ s ∈ checked, up' s →
      up s ∨ owed' ∨ w.notified = true ∨ excused')
    (howed : owed → owed') (hexcused : excused → excused') :
    Promise up' owed' excused' w checked := by
  refine ⟨h.armed, fun s hs hs' => ?_⟩
  rcases hup s hs hs' with hold | hnew
  · exact (h.kept s hs hold).imp howed (·.imp_right hexcused)
  · exact hnew

/-- A wake-up keeps every promise. -/
theorem Promise.wake (h : Promise up owed excused w checked) :
    Promise up' owed' excused' w.wake checked :=
  ⟨.inr h.armed.wake, fun _ _ _ => .inr (.inl h.armed.wake)⟩

/-- **No wake-up is lost**: a waiter that was not notified, to whom nobody
owes a wake-up, waits for signals that are all down. -/
theorem Promise.down (h : Promise up owed excused w checked)
    (howed : ¬ owed) (hnotified : w.notified = false) (hexcused : ¬ excused) :
    ∀ s ∈ checked, ¬ up s := by
  intro s hs hup
  rcases h.kept s hs hup with ho | hn | he
  · exact howed ho
  · rw [hnotified] at hn
    cases hn
  · exact hexcused he

end Promise

end NetMux.Lib.Wakeup
