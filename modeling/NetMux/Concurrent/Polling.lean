import Mathlib.Data.PNat.Defs
import Mathlib.Logic.Function.Basic
import NetMux.Lib.Wakeup
import NetMux.Stream.Invariant

/-!
# Polling a stream, one atomic step at a time

`StreamInner` runs every call without interference and leaves the wakers out.
In the code a poll and the calls that may wake it run on different threads,
and each load, store, compare-exchange, lock and wake-up is a step of its own.
Here a poll is where it stands (`AcquirePc`, `ReadPc`, `AckPc`), and a call
that notifies is the list of the atomic instructions it has yet to execute.
All share the stream and its three wakers (`Live`).

Without interference the steps of a call add up to the call as `StreamInner`
has it: `acquire_alone`, `read_alone`, `ack_alone` and `notify_alone`.
-/

namespace NetMux

open Lib.Word Lib.Wakeup

theorem Emit.append_none (e : Emit) : e.append .none = e := by
  simp [Emit.append, Emit.none]

theorem Emit.append_append (a b c : Emit) :
    (a.append b).append c = a.append (b.append c) := by
  simp [Emit.append]

/-! ## What is waited for -/

/-- The three wait points: credit to send, bytes to read, the `ACK`. -/
inductive Point where
  | window
  | recv
  | ack
  deriving DecidableEq, Repr

/-- What can end a wait. -/
inductive Signal where
  | closed
  | credit
  | bytes
  | readShut
  | reset
  | acked
  | writeShut
  deriving DecidableEq, Repr

/-- The signals a wait point looks at, in the order of its re-checks. -/
def Point.signals : Point → List Signal
  | .window => [.closed, .credit]
  | .recv => [.bytes, .readShut, .reset]
  | .ack => [.acked, .reset, .writeShut]

/-- A stream with its wakers and what it has emitted. -/
structure Live where
  inner : StreamInner
  emitted : Emit
  wakers : Point → Waker

namespace Live

def new (inner : StreamInner) : Live := ⟨inner, .none, fun _ => .new⟩

/-- Whether a signal is up. -/
def up (l : Live) : Signal → Bool
  | .closed => l.inner.sendWindow.closed
  | .credit => l.inner.sendWindow.available != 0
  | .bytes => !l.inner.recv.isEmpty
  | .readShut => !l.inner.state.readOpen
  | .reset => l.inner.state.reset
  | .acked => l.inner.ackReceived
  | .writeShut => !l.inner.state.writeOpen

def register (l : Live) (p : Point) : Live :=
  { l with wakers := Function.update l.wakers p (l.wakers p).register }

def wake (l : Live) (p : Point) : Live :=
  { l with wakers := Function.update l.wakers p (l.wakers p).wake }

def emit (l : Live) (e : Emit) : Live := { l with emitted := l.emitted.append e }

/-- Replace the credit word. -/
def setCredit (l : Live) (available : UInt32) : Live :=
  { l with inner :=
    { l.inner with sendWindow := { l.inner.sendWindow with available } } }

/-- Replace the state bits. -/
def setState (l : Live) (state : StreamState) : Live :=
  { l with inner := { l.inner with state := state } }

end Live

/-! ## Notifiers -/

/-- The atomic instructions of the calls that notify. -/
inductive Prim where
  /-- Push under the lock of the buffer. -/
  | push (payload : Bytes)
  | clearRead
  | clearWrite
  | setReset
  | setClosed
  | setAcked
  /-- Load the credit, to add to it. -/
  | loadCredit (delta : UInt32)
  /-- Try to exchange the credit for a greater one. -/
  | addCredit (delta cur : UInt32)
  | wake (p : Point)
  /-- The swap at the start of `local_reset`: a stream that was reset before
  only has its halves closed again. -/
  | swapReset
  /-- Swap `fin_sent` and send the `RST`. -/
  | sendRst
  /-- Ask the closer to drop the stream. -/
  | sendClose
  deriving DecidableEq, Repr

namespace Prim

/-- What `SendWindow::close` does. -/
def closeWindow : List Prim := [.setClosed, .wake .window]

/-- What `local_reset` does after its swap found the stream not reset. -/
def resetRest : List Prim :=
  [.clearRead, .clearWrite, .sendRst] ++ closeWindow ++
    [.wake .recv, .wake .ack, .sendClose]

/-- One instruction: the stream afterwards, the instructions that come next
in its place, and the signal it has raised. -/
def exec (spurious : Bool) (l : Live) : Prim → Live × List Prim × Option Signal
  | push payload =>
      ({ l with inner := { l.inner with recv := l.inner.recv.push payload } },
        [], some .bytes)
  | clearRead => (l.setState l.inner.state.closeRead.2, [], some .readShut)
  | clearWrite => (l.setState l.inner.state.closeWrite.2, [], some .writeShut)
  | setReset =>
      (l.setState { l.inner.state with reset := true }, [], some .reset)
  | setClosed =>
      ({ l with inner :=
        { l.inner with sendWindow := l.inner.sendWindow.close } },
        [], some .closed)
  | setAcked =>
      ({ l with inner := { l.inner with ackReceived := true } },
        [], some .acked)
  | loadCredit delta =>
      (l, [addCredit delta l.inner.sendWindow.available], none)
  | addCredit delta cur =>
      if !spurious && l.inner.sendWindow.available == cur then
        (l.setCredit (saturatingAdd cur delta), [], some .credit)
      else (l, [addCredit delta l.inner.sendWindow.available], none)
  | wake p => (l.wake p, [], none)
  | swapReset =>
      if l.inner.state.reset then (l, [clearRead, clearWrite], none)
      else
        (l.setState { l.inner.state with reset := true }, resetRest,
          some .reset)
  | sendRst =>
      if l.inner.finSent then (l, [], none)
      else
        (({ l with inner := { l.inner with finSent := true } } : Live).emit
          ⟨[.rst l.inner.id], []⟩, [], none)
  | sendClose => (l.emit ⟨[], [l.inner.id]⟩, [], none)

end Prim

/-- The calls that notify. -/
inductive Notify where
  | grant (delta : UInt32)
  | close
  | pushData (payload : Bytes)
  | remoteFin
  | markAcked
  | remoteReset
  | localReset
  | forceClose
  deriving DecidableEq, Repr

namespace Notify

open Prim in
/-- The instructions of a call, in the order of the source. -/
def program : Notify → List Prim
  | grant delta => if delta = 0 then [] else [loadCredit delta, wake .window]
  | close => closeWindow
  | pushData payload =>
      if payload.isEmpty then [] else [push payload, wake .recv]
  | remoteFin => [clearRead, wake .recv]
  | markAcked => [setAcked, wake .ack]
  | remoteReset =>
      [setReset, clearRead, clearWrite] ++ closeWindow ++
        [wake .recv, wake .ack, sendClose]
  | localReset => [swapReset]
  | forceClose =>
      [clearRead, clearWrite] ++ closeWindow ++ [wake .recv, wake .ack]

/-- The call as `StreamInner` has it. -/
def apply (s : StreamInner) : Notify → StreamInner × Emit
  | grant delta => (s.grantSendCredit delta, .none)
  | close => ({ s with sendWindow := s.sendWindow.close }, .none)
  | pushData payload => (s.pushData payload, .none)
  | remoteFin => (s.remoteFin, .none)
  | markAcked => (s.markAcked, .none)
  | remoteReset => s.remoteReset
  | localReset => s.localReset
  | forceClose => (s.forceClose, .none)

end Notify

/-- A call that notifies, under way: the signals it has raised and the
instructions it has yet to execute. -/
structure Notifier where
  raised : List Signal
  todo : List Prim
  deriving DecidableEq, Repr

namespace Notifier

def start (n : Notify) : Notifier := ⟨[], n.program⟩

def next (spurious : Bool) (l : Live) (n : Notifier) : Live × Notifier :=
  match n.todo with
  | [] => (l, n)
  | p :: rest =>
      ((p.exec spurious l).1,
        ⟨n.raised ++ (p.exec spurious l).2.2.toList,
          (p.exec spurious l).2.1 ++ rest⟩)

/-- The call is between a change that ends the wait at a point and its
wake-up there. -/
def owes (n : Notifier) (p : Point) : Bool :=
  n.raised.any (p.signals.contains ·) && n.todo.contains (.wake p)

end Notifier

/-! ### What an instruction does -/

namespace Prim

/-- The signal an instruction raises or prepares to raise. -/
def signal : Prim → Option Signal
  | push _ => some .bytes
  | clearRead => some .readShut
  | clearWrite => some .writeShut
  | setReset => some .reset
  | setClosed => some .closed
  | setAcked => some .acked
  | loadCredit _ | addCredit _ _ => some .credit
  | wake _ | swapReset | sendRst | sendClose => none

theorem up_push {l : Live} (h : l.up .bytes = true) (payload : Bytes) :
    (!(l.inner.recv.push payload).isEmpty) = true := by
  rw [Live.up, Bool.not_eq_true', ← Bool.not_eq_true, RecvBuffer.isEmpty_iff] at h
  rw [Bool.not_eq_true', ← Bool.not_eq_true, RecvBuffer.isEmpty_iff,
    RecvBuffer.contents_push]
  intro hnil
  exact h (List.append_eq_nil_iff.mp hnil).1

theorem up_credit {cur : UInt32} (h : (cur != 0) = true) (delta : UInt32) :
    (Lib.Word.saturatingAdd cur delta != 0) = true := by
  rw [bne_iff_ne, ne_eq, Lib.Word.eq_zero_iff] at h ⊢
  rw [Lib.Word.toNat_saturatingAdd]
  omega

variable (p : Prim) (spurious : Bool) (l : Live)

/-- A signal goes up only when the instruction says so. -/
theorem exec_up {s : Signal} (h : (p.exec spurious l).1.up s = true) :
    l.up s = true ∨ (p.exec spurious l).2.2 = some s := by
  cases p with
  | addCredit delta cur =>
      simp only [exec] at h ⊢
      split
      · rename_i hwin
        rw [if_pos hwin] at h
        cases s <;> first | exact .inr rfl | exact .inl h
      · rename_i hlose
        rw [if_neg hlose] at h
        exact .inl h
  | swapReset =>
      simp only [exec] at h ⊢
      split
      · rename_i hreset
        rw [if_pos hreset] at h
        exact .inl h
      · rename_i hreset
        rw [if_neg hreset] at h
        cases s <;> first | exact .inr rfl | exact .inl h
  | sendRst =>
      simp only [exec] at h ⊢
      split
      · rename_i hsent
        rw [if_pos hsent] at h
        exact .inl h
      · rename_i hsent
        rw [if_neg hsent] at h
        exact .inl h
  | _ => cases s <;> first | exact .inr rfl | exact .inl h

/-- No instruction takes a signal down. -/
theorem exec_keeps {s : Signal} (h : l.up s = true) :
    (p.exec spurious l).1.up s = true := by
  cases p with
  | push payload =>
      cases s with
      | bytes => exact up_push h payload
      | _ => exact h
  | addCredit delta cur =>
      simp only [exec]
      split
      · rename_i hwin
        rw [Bool.and_eq_true, beq_iff_eq] at hwin
        cases s with
        | credit => exact up_credit (hwin.2 ▸ h) delta
        | _ => exact h
      · exact h
  | swapReset =>
      simp only [exec]
      split
      · exact h
      · cases s <;> first | exact h | rfl
  | sendRst =>
      simp only [exec]
      split
      · exact h
      · cases s <;> exact h
  | _ => cases s <;> first | exact h | rfl

/-- Wakers are touched by wake-ups only. -/
theorem exec_wakers (q : Point) :
    (p.exec spurious l).1.wakers q =
      if p = .wake q then (l.wakers q).wake else l.wakers q := by
  cases p with
  | wake q' =>
      show Function.update l.wakers q' (l.wakers q').wake q = _
      by_cases hq : q = q'
      · subst hq
        rw [Function.update_self, if_pos rfl]
      · rw [Function.update_of_ne hq, if_neg]
        rintro ⟨⟩
        exact hq rfl
  | addCredit delta cur =>
      simp only [exec]
      split <;> rfl
  | swapReset =>
      simp only [exec]
      split <;> rfl
  | sendRst =>
      simp only [exec]
      split <;> rfl
  | _ => rfl

/-- The signal raised is the one announced, but for the swap of
`local_reset`. -/
theorem exec_raises {s : Signal} (h : (p.exec spurious l).2.2 = some s) :
    p.signal = some s ∨ p = .swapReset ∧ s = .reset ∧
      (p.exec spurious l).2.1 = resetRest := by
  cases p with
  | addCredit delta cur =>
      simp only [exec] at h
      split at h
      · exact .inl h
      · cases h
  | swapReset =>
      simp only [exec] at h ⊢
      split at h
      · cases h
      · rename_i hreset
        rw [if_neg hreset]
        exact .inr ⟨trivial, Option.some.inj h.symm, rfl⟩
  | sendRst =>
      simp only [exec] at h
      split at h <;> cases h
  | loadCredit delta => cases h
  | wake q => cases h
  | sendClose => cases h
  | _ => exact .inl h

end Prim

namespace Notifier

variable {l : Live} {n : Notifier} {p : Prim} {rest : List Prim}

theorem next_nil (htodo : n.todo = []) (spurious : Bool) :
    n.next spurious l = (l, n) := by
  rw [next, htodo]

theorem next_cons (htodo : n.todo = p :: rest) (spurious : Bool) :
    n.next spurious l = ((p.exec spurious l).1,
      ⟨n.raised ++ (p.exec spurious l).2.2.toList,
        (p.exec spurious l).2.1 ++ rest⟩) := by
  rw [next, htodo]

theorem next_keeps (n : Notifier) (spurious : Bool) {l : Live} {s : Signal}
    (h : l.up s = true) : (n.next spurious l).1.up s = true := by
  cases htodo : n.todo with
  | nil =>
      rwa [next_nil htodo]
  | cons p rest =>
      rw [next_cons htodo]
      exact p.exec_keeps spurious l h

end Notifier

/-! ### Calls that nothing interferes with -/

/-- An instruction that nothing takes the place of. -/
def Prim.straight : Prim → Bool
  | loadCredit _ | addCredit _ _ | swapReset => false
  | _ => true

theorem Prim.exec_straight {p : Prim} (hp : p.straight = true) (l : Live) :
    (p.exec false l).2.1 = [] := by
  cases p with
  | loadCredit delta => cases hp
  | addCredit delta cur => cases hp
  | swapReset => cases hp
  | sendRst =>
      simp only [exec]
      split <;> rfl
  | _ => rfl

/-- A stream after some instructions, one after another. -/
def Live.execAll (l : Live) (ps : List Prim) : Live :=
  ps.foldl (fun l p => (p.exec false l).1) l

/-- A call of straight instructions executes them in as many steps. -/
theorem Notifier.finish (ps : List Prim) (hps : ps.all Prim.straight = true) :
    ∀ (n : Nat) (l : Live) (raised : List Signal), ps.length ≤ n →
      let r := Nat.iterate (fun x => Notifier.next false x.1 x.2) n
        (l, ⟨raised, ps⟩)
      r.2.todo = [] ∧ r.1 = l.execAll ps := by
  induction ps with
  | nil =>
      intro n l raised _ r
      have hr : r = (l, ⟨raised, []⟩) := Function.iterate_fixed rfl n
      rw [hr]
      exact ⟨rfl, rfl⟩
  | cons p ps ih =>
      intro n l raised hn
      rw [List.all_cons, Bool.and_eq_true] at hps
      cases n with
      | zero => cases hn
      | succ n =>
          have hnext : Notifier.next false l ⟨raised, p :: ps⟩ =
              ((p.exec false l).1,
                ⟨raised ++ (p.exec false l).2.2.toList, ps⟩) := by
            rw [Notifier.next_cons rfl, Prim.exec_straight hps.1,
              List.nil_append]
          show _ ∧ _
          rw [Function.iterate_succ_apply, hnext]
          exact ih hps.2 n _ _ (Nat.le_of_succ_le_succ hn)

/-- Such a call is the call of `StreamInner` when its instructions add up to
it. -/
theorem straight_alone (l : Live) (n : Notify)
    (hps : n.program.all Prim.straight = true) (hlen : n.program.length ≤ 10)
    (hinner : (l.execAll n.program).inner = (n.apply l.inner).1)
    (hemit : (l.execAll n.program).emitted =
      l.emitted.append (n.apply l.inner).2) :
    let r := Nat.iterate (fun x => Notifier.next false x.1 x.2) 10
      (l, Notifier.start n)
    r.2.todo = [] ∧ r.1.inner = (n.apply l.inner).1 ∧
      r.1.emitted = l.emitted.append (n.apply l.inner).2 := by
  intro r
  obtain ⟨htodo, hlive⟩ := Notifier.finish n.program hps 10 l [] hlen
  exact ⟨htodo, (congrArg Live.inner hlive).trans hinner,
    (congrArg Live.emitted hlive).trans hemit⟩

/-- The swap of `local_reset` and what takes its place add up to the call. -/
theorem execAll_swapReset (l : Live) :
    ((Prim.swapReset.exec false l).1.execAll
        (Prim.swapReset.exec false l).2.1).inner = l.inner.localReset.1 ∧
      ((Prim.swapReset.exec false l).1.execAll
        (Prim.swapReset.exec false l).2.1).emitted =
          l.emitted.append l.inner.localReset.2 := by
  obtain ⟨⟨id, config, ⟨readOpen, writeOpen, reset⟩, sendWindow, recvWindow,
    recv, ackReceived, finSent⟩, emitted, wakers⟩ := l
  cases reset with
  | true => exact ⟨rfl, (emitted.append_none).symm⟩
  | false =>
      cases finSent with
      | true => exact ⟨rfl, rfl⟩
      | false => exact ⟨rfl, emitted.append_append _ _⟩

/-- **A call that nothing interferes with is the call of `StreamInner`.** -/
theorem notify_alone (l : Live) (n : Notify) :
    let r := Nat.iterate (fun x => Notifier.next false x.1 x.2) 10
      (l, Notifier.start n)
    r.2.todo = [] ∧ r.1.inner = (n.apply l.inner).1 ∧
      r.1.emitted = l.emitted.append (n.apply l.inner).2 := by
  have hnone : ∀ {a b : Emit}, a = b → a = b.append .none := by
    intro a b h
    rw [h, b.append_none]
  cases n with
  | grant delta =>
      intro r
      by_cases hzero : delta = 0
      · have hr : r = (l, ⟨[], []⟩) := by
          simp [r, Notifier.start, Notify.program, hzero, Notifier.next]
        rw [hr]
        refine ⟨rfl, ?_, hnone rfl⟩
        simp [Notify.apply, StreamInner.grantSendCredit, SendWindow.grant, hzero]
      · have hr : r = ((l.setCredit (saturatingAdd
            l.inner.sendWindow.available delta)).wake .window,
            ⟨[.credit], []⟩) := by
          simp [r, Notifier.start, Notify.program, hzero, Notifier.next,
            Prim.exec]
        rw [hr]
        refine ⟨rfl, ?_, hnone rfl⟩
        simp [Notify.apply, StreamInner.grantSendCredit, SendWindow.grant,
          hzero, Live.wake, Live.setCredit]
  | close => exact straight_alone l .close rfl (by decide) rfl (hnone rfl)
  | pushData payload =>
      by_cases hempty : payload = []
      · subst hempty
        exact straight_alone l (.pushData []) rfl (by decide) rfl (hnone rfl)
      · intro r
        have hr : r = (Live.wake { l with inner :=
            { l.inner with recv := l.inner.recv.push payload } } .recv,
            ⟨[.bytes], []⟩) := by
          simp [r, Notifier.start, Notify.program, hempty, Notifier.next,
            Prim.exec]
        rw [hr]
        refine ⟨rfl, ?_, hnone rfl⟩
        simp [Notify.apply, StreamInner.pushData, hempty, Live.wake]
  | remoteFin => exact straight_alone l .remoteFin rfl (by decide) rfl (hnone rfl)
  | markAcked => exact straight_alone l .markAcked rfl (by decide) rfl (hnone rfl)
  | remoteReset => exact straight_alone l .remoteReset rfl (by decide) rfl rfl
  | localReset =>
      intro r
      have hr : r = Nat.iterate (fun x => Notifier.next false x.1 x.2) 9
          ((Prim.swapReset.exec false l).1,
            ⟨(Prim.swapReset.exec false l).2.2.toList,
              (Prim.swapReset.exec false l).2.1 ++ []⟩) :=
        Function.iterate_succ_apply _ 9 _
      rw [List.append_nil] at hr
      have hps : (Prim.swapReset.exec false l).2.1.all Prim.straight = true := by
        simp only [Prim.exec]
        split <;> rfl
      have hlen : (Prim.swapReset.exec false l).2.1.length ≤ 9 := by
        simp only [Prim.exec]
        split <;> simp [Prim.resetRest, Prim.closeWindow]
      obtain ⟨htodo, hlive⟩ := Notifier.finish _ hps 9
        (Prim.swapReset.exec false l).1 _ hlen
      rw [hr]
      refine ⟨htodo, ?_⟩
      rw [hlive]
      exact execAll_swapReset l
  | forceClose => exact straight_alone l .forceClose rfl (by decide) rfl (hnone rfl)

/-! ## Polls -/

/-- A call of `poll_acquire`, by what it does next. -/
inductive AcquirePc where
  | idle
  | closedCheck (desired : UInt32)
  /-- The load of `try_take`, the first time or `again` after registering. -/
  | load (desired : UInt32) (again : Bool)
  | exchange (desired cur : UInt32) (again : Bool)
  | register (desired : UInt32)
  | closedRecheck (desired : UInt32)
  | done (outcome : AcquireOutcome)
  deriving DecidableEq, Repr

/-- A call of `poll_read`, by what it does next, with the capacity of the
buffer and the number of the pass through the loop. -/
inductive ReadPc where
  | idle
  | resetCheck (remaining : ℕ+) (pass : Nat)
  | drain (remaining : ℕ+) (pass : Nat)
  /-- Account for the bytes taken and return them. -/
  | consume (bytes : Bytes)
  | openCheck (remaining : ℕ+) (pass : Nat)
  | register (remaining : ℕ+) (pass : Nat)
  | emptyRecheck (remaining : ℕ+) (pass : Nat)
  | openRecheck (remaining : ℕ+) (pass : Nat)
  | resetRecheck (remaining : ℕ+) (pass : Nat)
  | done (result : Poll (Except IoError Bytes))
  deriving DecidableEq

/-- One poll of `wait_acked`, by what it does next. -/
inductive AckPc where
  | idle
  | ackCheck
  | resetCheck
  | openCheck
  | register
  | ackRecheck
  | resetRecheck
  | openRecheck
  | done (result : Poll (Except Error Unit))
  deriving DecidableEq

namespace ReadPc

/-- Where a call begins: a buffer without capacity is left alone. -/
def start (remaining : Nat) : ReadPc :=
  if h : 0 < remaining then .resetCheck ⟨remaining, h⟩ 1
  else .done (.ready (.ok []))

/-- The pass through the loop a call is in. -/
def pass : ReadPc → Nat
  | resetCheck _ n | drain _ n | openCheck _ n | register _ n
  | emptyRecheck _ n | openRecheck _ n | resetRecheck _ n => n
  | idle | consume _ | done _ => 0

end ReadPc

namespace Live

/-- One atomic step of `poll_acquire`. -/
def acquireNext (spurious : Bool) (l : Live) : AcquirePc → Live × AcquirePc
  | .idle => (l, .idle)
  | .closedCheck desired =>
      (l, if l.inner.sendWindow.closed then .done .closed
        else .load desired false)
  | .load desired again =>
      (l, if l.inner.sendWindow.available = 0 then
          if again then .done .pending else .register desired
        else .exchange desired l.inner.sendWindow.available again)
  | .exchange desired cur again =>
      if !spurious && l.inner.sendWindow.available == cur then
        (l.setCredit (cur - min cur desired),
          .done (.acquired (min cur desired)))
      else (l, .load desired again)
  | .register desired => (l.register .window, .closedRecheck desired)
  | .closedRecheck desired =>
      (l, if l.inner.sendWindow.closed then .done .closed
        else .load desired true)
  | .done outcome => (l, .done outcome)

/-- One atomic step of `poll_read`. -/
def readNext (l : Live) : ReadPc → Live × ReadPc
  | .idle => (l, .idle)
  | .resetCheck remaining pass =>
      (l, if l.inner.state.reset then
          .done (.ready (.error StreamInner.resetError))
        else .drain remaining pass)
  | .drain remaining pass =>
      let (bytes, recv) := l.inner.recv.readInto remaining
      ({ l with inner := { l.inner with recv := recv } },
        if 0 < bytes.length then .consume bytes else .openCheck remaining pass)
  | .consume bytes =>
      let (delta, window) :=
        l.inner.recvWindow.onConsume (UInt32.ofNat bytes.length)
      (({ l with inner := { l.inner with recvWindow := window } } : Live).emit
          ⟨StreamInner.creditFrames l.inner.id delta, []⟩,
        .done (.ready (.ok bytes)))
  | .openCheck remaining pass =>
      (l, if !l.inner.state.readOpen then .done (.ready (.ok []))
        else .register remaining pass)
  | .register remaining pass => (l.register .recv, .emptyRecheck remaining pass)
  | .emptyRecheck remaining pass =>
      (l, if !l.inner.recv.isEmpty then .resetCheck remaining (pass + 1)
        else .openRecheck remaining pass)
  | .openRecheck remaining pass =>
      (l, if !l.inner.state.readOpen then .resetCheck remaining (pass + 1)
        else .resetRecheck remaining pass)
  | .resetRecheck remaining pass =>
      (l, if l.inner.state.reset then .resetCheck remaining (pass + 1)
        else .done .pending)
  | .done result => (l, .done result)

/-- One atomic step of a poll of `wait_acked`. -/
def ackNext (l : Live) : AckPc → Live × AckPc
  | .idle => (l, .idle)
  | .ackCheck =>
      (l, if l.inner.ackReceived then .done (.ready (.ok ())) else .resetCheck)
  | .resetCheck =>
      (l, if l.inner.state.reset then
          .done (.ready (.error (.streamReset l.inner.id)))
        else .openCheck)
  | .openCheck =>
      (l, if !l.inner.state.writeOpen then
          .done (.ready (.error .sessionClosed))
        else .register)
  | .register => (l.register .ack, .ackRecheck)
  | .ackRecheck =>
      (l, if l.inner.ackReceived then .done (.ready (.ok ()))
        else .resetRecheck)
  | .resetRecheck =>
      (l, if l.inner.state.reset then
          .done (.ready (.error (.streamReset l.inner.id)))
        else .openRecheck)
  | .openRecheck =>
      (l, if !l.inner.state.writeOpen then
          .done (.ready (.error .sessionClosed))
        else .done .pending)
  | .done result => (l, .done result)

/-! ### Without interference -/

/-- **`poll_acquire` alone is the call.** -/
theorem acquire_alone (l : Live) (desired : UInt32) :
    let r := Nat.iterate (fun x => acquireNext false x.1 x.2) 6
      (l, .closedCheck desired)
    r.2 = .done (l.inner.sendWindow.pollAcquire desired).1 ∧
      r.1.inner =
        { l.inner with
          sendWindow := (l.inner.sendWindow.pollAcquire desired).2 } := by
  intro r
  rw [SendWindow.pollAcquire_eq]
  by_cases hclosed : l.inner.sendWindow.closed = true
  · simp [r, acquireNext, hclosed]
  · by_cases hzero : l.inner.sendWindow.available = 0
    · simp [r, acquireNext, hclosed, hzero, register]
    · simp [r, acquireNext, hclosed, hzero, setCredit]

/-- **`poll_read` alone is the call.** -/
theorem read_alone (l : Live) (remaining : Nat) :
    let r := Nat.iterate (fun x => readNext x.1 x.2) 7
      (l, ReadPc.start remaining)
    r.2 = .done (l.inner.pollRead remaining).1 ∧
      r.1.inner = (l.inner.pollRead remaining).2.1 ∧
      r.1.emitted = l.emitted.append (l.inner.pollRead remaining).2.2 := by
  intro r
  rw [StreamInner.pollRead_eq]
  by_cases hzero : remaining = 0
  · simp [r, ReadPc.start, hzero, readNext, Emit.append_none]
  have hpos := Nat.pos_of_ne_zero hzero
  by_cases hreset : l.inner.state.reset = true
  · simp [r, ReadPc.start, hzero, hpos, readNext, hreset, Emit.append_none]
  have hfst := RecvBuffer.readInto_fst l.inner.recv remaining
  have hsnd := RecvBuffer.readInto_contents l.inner.recv remaining
  by_cases hempty : l.inner.recv.contents = []
  · have hleft : (l.inner.recv.readInto remaining).2.isEmpty = true := by
      rw [RecvBuffer.isEmpty_iff, hsnd, hempty, List.drop_nil]
    rw [hempty, List.take_nil] at hfst
    by_cases hopen : l.inner.state.readOpen = true
    · simp [r, ReadPc.start, hzero, hpos, readNext, hreset, hempty, hfst, hleft,
        hopen, register, Emit.append_none]
    · simp [r, ReadPc.start, hzero, hpos, readNext, hreset, hempty, hfst, hopen,
        Emit.append_none]
  · have hlen := List.length_pos_iff.mpr hempty
    simp [r, ReadPc.start, hzero, hpos, readNext, hreset, hempty, hfst, hlen,
      emit]

/-- **A poll of `wait_acked` alone is the call.** -/
theorem ack_alone (l : Live) :
    let r := Nat.iterate (fun x => ackNext x.1 x.2) 7 (l, .ackCheck)
    r.2 = .done l.inner.waitAcked ∧ r.1.inner = l.inner := by
  intro r
  by_cases hack : l.inner.ackReceived = true
  · simp [r, ackNext, StreamInner.waitAcked, hack]
  · by_cases hreset : l.inner.state.reset = true
    · simp [r, ackNext, StreamInner.waitAcked, hack, hreset]
    · by_cases hopen : l.inner.state.writeOpen = true
      · simp [r, ackNext, StreamInner.waitAcked, hack, hreset, hopen, register]
      · simp [r, ackNext, StreamInner.waitAcked, hack, hreset, hopen]

end Live

end NetMux
