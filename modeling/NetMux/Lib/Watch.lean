import Mathlib.Init

/-!
# A watch channel

One value with a version, and any number of receivers that each remember the
version they have seen.  A receiver that subscribes counts the current version
as seen, so it is woken by a later `send` only; a `send` that finds no receiver
is an error and changes nothing.

Whether a waiting receiver is woken is then decided by where its subscription
falls: one that was up to date before the `send` is woken (`changed_send`), one
that subscribes after it is up to date again (`upToDate_subscribe`).
-/

namespace NetMux.Lib

/-- The sending end. -/
structure Watch (α : Type) where
  value : α
  version : Nat
  deriving DecidableEq, Repr

/-- A receiving end, by the version it has seen. -/
structure Receiver where
  seen : Nat
  deriving DecidableEq, Repr

namespace Watch

variable {α : Type} (w : Watch α)

/-- A new channel.  Its first receiver is `subscribe`, too. -/
def new (a : α) : Watch α := ⟨a, 0⟩

/-- A new receiver, for which the current version is an old one. -/
def subscribe : Receiver := ⟨w.version⟩

/-- Send a value while there are so many receivers. -/
def send (receivers : Nat) (a : α) : Watch α :=
  if receivers = 0 then w else ⟨a, w.version + 1⟩

/-- The wait of a receiver is over. -/
def changed (rx : Receiver) : Bool := rx.seen != w.version

/-- The receiver has seen the current version. -/
def UpToDate (rx : Receiver) : Prop := rx.seen = w.version

theorem upToDate_subscribe : w.UpToDate w.subscribe := rfl

theorem changed_eq_false {rx : Receiver} :
    w.changed rx = false ↔ w.UpToDate rx := by
  simp [changed, UpToDate]

/-- A receiver of before wakes up. -/
theorem changed_send {receivers : Nat} (h : receivers ≠ 0) (a : α)
    {rx : Receiver} (hrx : w.UpToDate rx) :
    (w.send receivers a).changed rx = true := by
  have hseen : rx.seen = w.version := hrx
  simp [send, h, changed, hseen]

end Watch

end NetMux.Lib
