import NetMux.Concurrent.Shutdown
import NetMux.Lib.Watch

/-!
# Who hears the shutdown signal

`initiate_shutdown` trips a watch once, as its last step.  The background tasks
and the calls of `accept()` wait on receivers of that watch, and each receiver
is taken at a moment of its own: `Session::new` subscribes for one task after
the other, with the ones before already running, and `accept()` subscribes
after it has looked at `is_closing`.  A receiver that is taken after the watch
was tripped has seen the last version there will be, and its task waits for
ever.

A `Process` is a session from the first line of `Session::new` on, with its
tasks and its calls of `accept()`, one atomic step at a time.  When no
subscription is outstanding at the moment of the trip, everyone who waits is
woken (`Process.shutdown_signal_heard`).
-/

namespace NetMux

open Lib Lib.Run

/-! ## Calls of `accept()` -/

/-- A call of `accept()`, by what it does next. -/
inductive AcceptPc where
  /-- Read `is_closing`. -/
  | closedCheck
  /-- Take a receiver of the shutdown watch. -/
  | subscribe
  /-- Wait for the lock of the accept queue. -/
  | lock (rx : Receiver)
  /-- Wait for the watch or for a stream, with the lock held. -/
  | recv (rx : Receiver)
  /-- Enqueue the `ACK` of the stream. -/
  | send (n : Ref)
  | done (result : Except Error Ref)
  /-- The future was dropped while it waited. -/
  | dropped

namespace AcceptPc

/-- The receiver that the call waits on. -/
def receiver? : AcceptPc → Option Receiver
  | .lock rx => some rx
  | .recv rx => some rx
  | _ => none

/-- The call has the lock of the accept queue. -/
def holdsLock : AcceptPc → Bool
  | .recv _ => true
  | _ => false

/-- The call has found the session open and has no receiver yet. -/
def subscribes : AcceptPc → Bool
  | .subscribe => true
  | _ => false

/-- The future of the call is dropped; between taking a stream and enqueueing
its `ACK` there is no await point. -/
def cancel : AcceptPc → AcceptPc
  | .lock _ => .dropped
  | .recv _ => .dropped
  | pc => pc

end AcceptPc

/-- The next atomic step of a call of `accept()`. -/
def Session.advanceAccept (w : Watch Bool) (locked : Bool) (s : Session) :
    AcceptPc → Session × AcceptPc
  | .closedCheck =>
      (s, if s.isClosing then .done (.error .sessionClosed) else .subscribe)
  | .subscribe => (s, .lock w.subscribe)
  | .lock rx => (s, if locked then .lock rx else .recv rx)
  | .recv rx =>
      if w.changed rx then (s, .done (.error .sessionClosed))
      else
        match s.accept.queue with
        | [] => (s, .recv rx)
        | n :: rest =>
            ({ s with accept := { s.accept with queue := rest } }, .send n)
  | .send n =>
      match s.streams[n]? with
      | none => (s, .send n)
      | some c =>
          if s.out.closed then
            ({ s with streams := s.streams.set n { c with owner := .gone } },
              .done (.error .sessionClosed))
          else
            ({ s with
                streams := s.streams.set n { c with owner := .handle }
                out := s.out.send (.ack c.id) },
              .done (.ok n))
  | .done result => (s, .done result)
  | .dropped => (s, .dropped)

/-- Where a poll of `accept()` leaves the call. -/
def AcceptPc.polled (rx : Receiver) : Poll (Except Error Ref) → AcceptPc
  | .pending => .recv rx
  | .ready result => .done result

/-- **A call of `accept()` with nobody in between is `acceptPoll`.** -/
theorem Session.alone_accept (s : Session) (w : Watch Bool)
    (hqueue : ∀ n ∈ s.accept.queue, n < s.streams.length) :
    alone (Session.advanceAccept w false) 5 (s, .closedCheck) =
      (s.acceptPoll.2, .polled w.subscribe s.acceptPoll.1) := by
  have hwait : w.changed w.subscribe = false :=
    w.changed_eq_false.mpr w.upToDate_subscribe
  unfold acceptPoll
  cases hcl : s.isClosing with
  | true => simp [alone, advanceAccept, hcl, AcceptPc.polled]
  | false =>
      cases hq : s.accept.queue with
      | nil => simp [alone, advanceAccept, hcl, hwait, hq, AcceptPc.polled]
      | cons n rest =>
          have hlt : n < s.streams.length := hqueue n (by simp [hq])
          have hn : s.streams[n]? = some s.streams[n] :=
            List.getElem?_eq_getElem hlt
          cases hout : s.out.closed with
          | true =>
              simp [alone, advanceAccept, hcl, hwait, hq, hn, hout,
                AcceptPc.polled]
          | false =>
              simp [alone, advanceAccept, hcl, hwait, hq, hn, hout,
                AcceptPc.polled]

/-! ## Background tasks -/

inductive Task where
  | writer
  | reader
  | closer
  | keepalive
  deriving DecidableEq, Repr

/-- The tasks that `Session::new` spawns, in this order. -/
def Task.spawned (cfg : Config) : List Task :=
  [.writer, .reader, .closer] ++
    if cfg.keepaliveInterval.isSome then [.keepalive] else []

/-- Where a task stands, as far as the watch is concerned. -/
inductive TaskPc where
  | unborn
  /-- In the select loop, with its receiver. -/
  | waiting (rx : Receiver)
  | ended
  deriving DecidableEq, Repr

def TaskPc.receiver? : TaskPc → Option Receiver
  | .waiting rx => some rx
  | _ => none

/-- A session with its tasks and its calls of `accept()`. -/
structure Process where
  shared : Shared
  watch : Watch Bool
  /-- The tasks for which `Session::new` has not subscribed yet. -/
  spawning : List Task
  /-- The task being spawned, with its receiver. -/
  held : Option (Task × Receiver)
  /-- `Session::new` has returned, and dropped the first receiver. -/
  returned : Bool
  tasks : Task → TaskPc
  accepts : List AcceptPc

/-- One atomic step of a process. -/
inductive Move where
  /-- `Session::new` subscribes for the next task. -/
  | subscribe
  /-- `Session::new` spawns the task it has subscribed for. -/
  | spawn
  /-- `Session::new` returns. -/
  | finish
  /-- A task sees that the watch has changed and ends. -/
  | wake (t : Task)
  /-- A task ends for another reason; the closer has none. -/
  | quit (t : Task)
  /-- Somebody calls `accept()`. -/
  | accept
  | acceptStep (k : Nat)
  | acceptCancel (k : Nat)
  /-- A task, or else a user, calls `initiate_shutdown`. -/
  | shutdown (caller : Option Task) (code : ErrorCode)
  /-- Any other step on the shared session. -/
  | tick (a : Tick)
  deriving DecidableEq, Repr

namespace Process

def new (cfg : Config) (role : Role) : Process where
  shared := Shared.new cfg role
  watch := .new false
  spawning := Task.spawned cfg
  held := none
  returned := false
  tasks := fun _ => .unborn
  accepts := []

/-- The number of receivers of the watch. -/
def receivers (p : Process) : Nat :=
  (!p.returned).toNat + p.held.toList.length +
    [Task.writer, .reader, .closer, .keepalive].countP
      (fun t => (p.tasks t).receiver?.isSome) +
    p.accepts.countP fun pc => pc.receiver?.isSome

/-- Who can call `initiate_shutdown`: a user who has the session, or a task
that runs.  The closer never does. -/
def mayShutDown (p : Process) : Option Task → Bool
  | none => p.returned
  | some .closer => false
  | some t => (p.tasks t).receiver?.isSome

/-- The steps that are a matter of `Process` alone, or need a user who has the
session. -/
def permits (p : Process) : Tick → Bool
  | .shutdown _ => false
  | .call => p.returned
  | _ => true

/-- The watch is tripped by the last step of the shutdown. -/
def tripped (p : Process) : Tick → Watch Bool
  | .shutdownStep =>
      if p.shared.shutdown = .trip then p.watch.send p.receivers true
      else p.watch
  | _ => p.watch

def step (p : Process) : Move → Process
  | .subscribe =>
      match p.held, p.spawning with
      | none, t :: rest =>
          { p with spawning := rest, held := some (t, p.watch.subscribe) }
      | _, _ => p
  | .spawn =>
      match p.held with
      | none => p
      | some (t, rx) =>
          { p with
            held := none
            tasks := Function.update p.tasks t (.waiting rx) }
  | .finish =>
      if p.held.isNone ∧ p.spawning = [] then { p with returned := true } else p
  | .wake t =>
      match p.tasks t with
      | .waiting rx =>
          if p.watch.changed rx then
            { p with tasks := Function.update p.tasks t .ended }
          else p
      | _ => p
  | .quit t =>
      if t ≠ .closer ∧ (p.tasks t).receiver?.isSome then
        { p with tasks := Function.update p.tasks t .ended }
      else p
  | .accept =>
      if p.returned then { p with accepts := p.accepts ++ [.closedCheck] }
      else p
  | .acceptStep k =>
      match p.accepts[k]? with
      | none => p
      | some pc =>
          let moved := p.shared.session.advanceAccept p.watch
            (p.accepts.any AcceptPc.holdsLock) pc
          { p with
            shared := { p.shared with session := moved.1 }
            accepts := p.accepts.set k moved.2 }
  | .acceptCancel k => { p with accepts := p.accepts.modify k AcceptPc.cancel }
  | .shutdown caller code =>
      if p.mayShutDown caller then
        { p with shared := p.shared.step (.shutdown code) }
      else p
  | .tick a =>
      if p.permits a then
        { p with shared := p.shared.step a, watch := p.tripped a }
      else p

/-- The watch is tripped while a receiver has yet to be taken: by
`Session::new` for a task, or by a call of `accept()` that has found the
session open. -/
def overtaken (p : Process) : Move → Bool
  | .tick .shutdownStep =>
      decide (p.shared.shutdown = .trip) &&
        (!p.spawning.isEmpty || p.accepts.any AcceptPc.subscribes)
  | _ => false

/-! ## Until the trip all receivers are up to date, and then all are woken -/

/-- What a receiver can count on. -/
def Hears (p : Process) (rx : Receiver) : Prop :=
  if p.shared.shutdown = .done then p.watch.changed rx = true
  else p.watch.UpToDate rx

structure Attentive (p : Process) : Prop where
  closing : p.shared.shutdown ≠ .idle → p.shared.session.isClosing = true
  held : ∀ t rx, p.held = some (t, rx) → p.Hears rx
  tasks : ∀ t rx, p.tasks t = .waiting rx → p.Hears rx
  accepts : ∀ pc ∈ p.accepts, ∀ rx, pc.receiver? = some rx → p.Hears rx
  /-- After the trip nobody is going to subscribe. -/
  settled : p.shared.shutdown = .done →
    p.spawning = [] ∧ p.accepts.any AcceptPc.subscribes = false

variable {p : Process} {m : Move}

theorem attentive_new (cfg : Config) (r : Role) : (new cfg r).Attentive where
  closing := fun h => absurd rfl h
  held := fun _ _ h => nomatch h
  tasks := fun _ _ h => nomatch h
  accepts := fun _ h => absurd h List.not_mem_nil
  settled := fun h => nomatch h

/-- The watch stays as it is. -/
theorem Attentive.other {p' : Process}
    (hdone : p'.shared.shutdown = .done ↔ p.shared.shutdown = .done)
    (hclosing : p'.shared.shutdown ≠ .idle →
      p'.shared.session.isClosing = true)
    (hwatch : p'.watch = p.watch)
    (hheld : ∀ t rx, p'.held = some (t, rx) → p.Hears rx)
    (htasks : ∀ t rx, p'.tasks t = .waiting rx → p.Hears rx)
    (haccepts : ∀ pc ∈ p'.accepts, ∀ rx, pc.receiver? = some rx → p.Hears rx)
    (hover : p.shared.shutdown = .done →
      p'.spawning = [] ∧ p'.accepts.any AcceptPc.subscribes = false) :
    p'.Attentive := by
  have hears : ∀ rx, p.Hears rx → p'.Hears rx := by
    intro rx hrx
    unfold Hears at hrx ⊢
    rw [hwatch]
    simpa only [hdone] using hrx
  exact
    { closing := hclosing
      held := fun t rx hrx => hears rx (hheld t rx hrx)
      tasks := fun t rx hrx => hears rx (htasks t rx hrx)
      accepts := fun pc hpc rx hrx => hears rx (haccepts pc hpc rx hrx)
      settled := fun hp => hover (hdone.mp hp) }

/-- Only the shared session is different. -/
theorem Attentive.shared (h : p.Attentive) {c : Shared}
    (hdone : c.shutdown = .done ↔ p.shared.shutdown = .done)
    (hclosing : c.shutdown ≠ .idle → c.session.isClosing = true) :
    Attentive { p with shared := c } :=
  .other hdone hclosing rfl h.held h.tasks h.accepts h.settled

/-- A receiver is taken while the watch has yet to be tripped. -/
theorem hears_subscribe (h : p.shared.shutdown ≠ .done) :
    p.Hears p.watch.subscribe := by
  unfold Hears
  rw [if_neg h]
  exact p.watch.upToDate_subscribe

/-- A task ends. -/
theorem Attentive.ended (h : p.Attentive) (t : Task) :
    Attentive { p with tasks := Function.update p.tasks t .ended } := by
  refine .other .rfl h.closing rfl h.held (fun u rx hu => ?_) h.accepts h.settled
  by_cases hut : u = t
  · subst hut
    simp at hu
  · simp only [Function.update_of_ne hut] at hu
    exact h.tasks u rx hu

end Process

/-! ### Calls of `accept()` -/

namespace Session

variable {s : Session} {w : Watch Bool} {locked : Bool} {pc : AcceptPc}

theorem advanceAccept_isClosing (s : Session) (w : Watch Bool) (locked : Bool)
    (pc : AcceptPc) :
    (s.advanceAccept w locked pc).1.isClosing = s.isClosing := by
  cases pc with
  | _ =>
      simp only [advanceAccept]
      repeat' split
      all_goals rfl

/-- A call keeps its receiver, or has just taken it. -/
theorem advanceAccept_receiver {rx : Receiver}
    (h : (s.advanceAccept w locked pc).2.receiver? = some rx) :
    pc.receiver? = some rx ∨ (pc = .subscribe ∧ rx = w.subscribe) := by
  cases pc with
  | subscribe => exact .inr ⟨rfl, (Option.some.inj h).symm⟩
  | _ =>
      left
      simp only [advanceAccept] at h
      repeat' split at h
      all_goals first | exact h | cases h

/-- A call goes on to subscribe in an open session only. -/
theorem advanceAccept_subscribes
    (h : (s.advanceAccept w locked pc).2.subscribes = true) :
    s.isClosing = false := by
  cases pc with
  | closedCheck =>
      simp only [advanceAccept] at h
      split at h
      · cases h
      · rename_i hopen
        exact Bool.not_eq_true _ ▸ hopen
  | _ =>
      simp only [advanceAccept] at h
      repeat' split at h
      all_goals cases h

end Session

namespace Process

variable {p : Process} {m : Move}

theorem Attentive.acceptStep (h : p.Attentive) (k : Nat) :
    (p.step (.acceptStep k)).Attentive := by
  simp only [step]
  split
  · exact h
  · rename_i pc hpc
    have hmem : pc ∈ p.accepts := List.mem_of_getElem? hpc
    refine .other .rfl (fun hpc => ?_) rfl h.held h.tasks ?_ ?_
    · exact (Session.advanceAccept_isClosing ..).trans (h.closing hpc)
    · intro pc' hpc' rx hrx
      rcases List.mem_or_eq_of_mem_set hpc' with hold | rfl
      · exact h.accepts pc' hold rx hrx
      · rcases Session.advanceAccept_receiver hrx with hold | ⟨rfl, rfl⟩
        · exact h.accepts pc hmem rx hold
        · refine hears_subscribe fun hdone => ?_
          have hnone := List.any_eq_false.mp (h.settled hdone).2 _ hmem
          exact hnone rfl
    · intro hdone
      refine ⟨(h.settled hdone).1, List.any_eq_false.mpr fun pc' hpc' hsub => ?_⟩
      rcases List.mem_or_eq_of_mem_set hpc' with hold | rfl
      · exact List.any_eq_false.mp (h.settled hdone).2 pc' hold hsub
      · have hopen := Session.advanceAccept_subscribes hsub
        rw [h.closing (by rw [hdone]; exact nofun)] at hopen
        cases hopen

theorem Attentive.acceptCancel (h : p.Attentive) (k : Nat) :
    (p.step (.acceptCancel k)).Attentive := by
  have hmem : ∀ pc ∈ p.accepts.modify k AcceptPc.cancel,
      pc ∈ p.accepts ∨ ∃ old ∈ p.accepts, pc = old.cancel := by
    intro pc hpc
    obtain ⟨j, hj⟩ := List.mem_iff_getElem?.mp hpc
    rw [List.getElem?_modify] at hj
    obtain ⟨old, hold, rfl⟩ := Option.map_eq_some_iff.mp hj
    have hin := List.mem_of_getElem? hold
    split
    · exact .inr ⟨old, hin, rfl⟩
    · exact .inl hin
  refine .other .rfl h.closing rfl h.held h.tasks (fun pc hpc rx hrx => ?_)
    fun hdone => ⟨(h.settled hdone).1, List.any_eq_false.mpr fun pc hpc hsub => ?_⟩
  · rcases hmem pc hpc with hold | ⟨old, hold, rfl⟩
    · exact h.accepts pc hold rx hrx
    · cases old with
      | _ => cases hrx
  · have hover := List.any_eq_false.mp (h.settled hdone).2
    rcases hmem pc hpc with hold | ⟨old, hold, rfl⟩
    · exact hover pc hold hsub
    · cases old with
      | subscribe => exact hover _ hold rfl
      | _ => cases hsub

end Process

/-! ### The shutdown -/

/-- A shutdown is over once it has tripped the watch. -/
theorem Session.advanceShutdown_done {s : Session} {pc : ShutdownPc} :
    (s.advanceShutdown pc).2 = .done ↔ pc = .trip ∨ pc = .done := by
  cases pc with
  | close rest => cases rest <;> simp [advanceShutdown]
  | _ => simp [advanceShutdown]

theorem Session.advanceShutdown_isClosing (s : Session) (pc : ShutdownPc) :
    (s.advanceShutdown pc).1.isClosing = s.isClosing := by
  unfold advanceShutdown
  split <;> rfl

/-- The other tasks leave the shutdown alone. -/
theorem Shared.step_shutdown_same (c : Shared) {a : Tick}
    (hshut : ∀ code, a ≠ .shutdown code) (hstep : a ≠ .shutdownStep) :
    (c.step a).shutdown = c.shutdown ∧
      (c.step a).session.isClosing = c.session.isClosing := by
  have hadvance : ∀ (k : Nat) (f : Session → OpenPc → Session × OpenPc),
      (∀ pc, (f c.session pc).1.isClosing = c.session.isClosing) →
      (c.advance k f).shutdown = c.shutdown ∧
        (c.advance k f).session.isClosing = c.session.isClosing := by
    intro k f hf
    unfold advance
    split
    · exact ⟨rfl, rfl⟩
    · exact ⟨rfl, hf _⟩
  cases a with
  | openStep k =>
      exact hadvance k _ fun pc => (c.session.advanceOpen_effect pc).1.isClosing
  | openTimer k =>
      exact hadvance k _ fun pc => (c.session.openTimer_effect pc).1.isClosing
  | syn id =>
      simp only [step]
      split <;> exact ⟨rfl, rfl⟩
  | readerStep =>
      refine ⟨rfl, ?_⟩
      show (c.session.advanceSyn c.reader).1.isClosing = _
      unfold Session.advanceSyn
      dsimp only
      repeat' split
      all_goals rfl
  | shutdown code => exact absurd rfl (hshut code)
  | shutdownStep => exact absurd rfl hstep
  | _ => exact ⟨rfl, rfl⟩

namespace Process

variable {p : Process} {m : Move}

theorem tripped_of_ne {a : Tick} (h : a ≠ .shutdownStep) :
    p.tripped a = p.watch := by
  cases a with
  | shutdownStep => exact absurd rfl h
  | _ => rfl

/-- Someone who waits is counted. -/
theorem receivers_ne_zero {rx : Receiver}
    (h : (∃ t, p.held = some (t, rx)) ∨ (∃ t, p.tasks t = .waiting rx) ∨
      ∃ pc ∈ p.accepts, pc.receiver? = some rx) : p.receivers ≠ 0 := by
  unfold receivers
  rcases h with ⟨t, ht⟩ | ⟨t, ht⟩ | ⟨pc, hpc, hrx⟩
  · simp [ht]
  · have hcount : 0 < [Task.writer, .reader, .closer, .keepalive].countP
        (fun t => (p.tasks t).receiver?.isSome) := by
      refine List.countP_pos_iff.mpr ⟨t, ?_, by rw [ht]; rfl⟩
      cases t <;> decide
    omega
  · have hcount : 0 < p.accepts.countP fun pc => pc.receiver?.isSome :=
      List.countP_pos_iff.mpr ⟨pc, hpc, by rw [hrx]; rfl⟩
    omega

/-- **The trip wakes everyone**, when no subscription is outstanding. -/
theorem Attentive.trip (h : p.Attentive) (hpc : p.shared.shutdown = .trip)
    (hlate : p.overtaken (.tick .shutdownStep) = false) :
    (p.step (.tick .shutdownStep)).Attentive := by
  have hsubs : p.spawning = [] ∧ p.accepts.any AcceptPc.subscribes = false := by
    simpa [overtaken, hpc] using hlate
  have hdone : (p.step (.tick .shutdownStep)).shared.shutdown = .done :=
    Session.advanceShutdown_done.mpr (.inl hpc)
  have hwatch : (p.step (.tick .shutdownStep)).watch =
      p.watch.send p.receivers true := if_pos hpc
  have hears : ∀ rx, p.Hears rx → p.receivers ≠ 0 →
      (p.step (.tick .shutdownStep)).Hears rx := by
    intro rx hrx hrecv
    unfold Hears at hrx ⊢
    rw [hpc, if_neg nofun] at hrx
    rw [if_pos hdone, hwatch]
    exact p.watch.changed_send hrecv true hrx
  exact
    { closing := fun _ =>
        (Session.advanceShutdown_isClosing ..).trans
          (h.closing (by rw [hpc]; exact nofun))
      held := fun t rx ht =>
        hears rx (h.held t rx ht) (receivers_ne_zero (.inl ⟨t, ht⟩))
      tasks := fun t rx ht =>
        hears rx (h.tasks t rx ht) (receivers_ne_zero (.inr (.inl ⟨t, ht⟩)))
      accepts := fun pc hmem rx hrx =>
        hears rx (h.accepts pc hmem rx hrx)
          (receivers_ne_zero (.inr (.inr ⟨pc, hmem, hrx⟩)))
      settled := fun _ => hsubs }

theorem Attentive.tick (h : p.Attentive) (a : Tick)
    (hlate : p.overtaken (.tick a) = false) : (p.step (.tick a)).Attentive := by
  by_cases hok : p.permits a = true
  · by_cases hstep : a = .shutdownStep
    · subst hstep
      by_cases hpc : p.shared.shutdown = .trip
      · exact h.trip hpc hlate
      · simp only [step, permits, tripped, if_pos, if_neg hpc]
        refine h.shared ?_ fun hnext => ?_
        · refine Session.advanceShutdown_done.trans ?_
          rw [or_iff_right hpc]
        · refine (Session.advanceShutdown_isClosing ..).trans (h.closing ?_)
          intro hidle
          refine hnext ?_
          show (Session.advanceShutdown _ _).2 = _
          rw [hidle]
          rfl
    · have hshut : ∀ code, a ≠ .shutdown code := by
        rintro code rfl
        cases hok
      obtain ⟨hsame, hclosing⟩ := p.shared.step_shutdown_same hshut hstep
      simp only [step, if_pos hok, tripped_of_ne hstep]
      refine h.shared (by rw [hsame]) fun hpc => ?_
      rw [hclosing]
      exact h.closing (hsame ▸ hpc)
  · simp only [step, if_neg hok]
    exact h

/-- **A step keeps every receiver awake**, unless the watch is tripped with a
subscription outstanding. -/
theorem Attentive.step (h : p.Attentive) (hlate : p.overtaken m = false) :
    (p.step m).Attentive := by
  cases m with
  | subscribe =>
      simp only [Process.step]
      split
      · rename_i t rest hheld hspawn
        refine .other .rfl h.closing rfl (fun u rx hu => ?_) h.tasks h.accepts
          fun hdone => ?_
        · cases hu
          refine hears_subscribe fun hdone => ?_
          rw [(h.settled hdone).1] at hspawn
          cases hspawn
        · rw [(h.settled hdone).1] at hspawn
          cases hspawn
      · exact h
  | spawn =>
      simp only [Process.step]
      split
      · exact h
      · rename_i t rx hheld
        refine .other .rfl h.closing rfl (by simp)
          (fun u rx' hu => ?_) h.accepts h.settled
        by_cases hut : u = t
        · subst hut
          simp only [Function.update_self, TaskPc.waiting.injEq] at hu
          exact hu ▸ h.held u rx hheld
        · simp only [Function.update_of_ne hut] at hu
          exact h.tasks u rx' hu
  | finish =>
      simp only [Process.step]
      split
      · exact { h with }
      · exact h
  | wake t =>
      simp only [Process.step]
      repeat' split
      · exact h.ended t
      · exact h
      · exact h
  | quit t =>
      simp only [Process.step]
      split
      · exact h.ended t
      · exact h
  | accept =>
      simp only [Process.step]
      split
      · refine .other .rfl h.closing rfl h.held h.tasks (fun pc hpc rx hrx => ?_)
          fun hdone => ?_
        · rcases List.mem_append.mp hpc with hpc | hpc
          · exact h.accepts pc hpc rx hrx
          · rw [List.mem_singleton.mp hpc] at hrx
            cases hrx
        · refine ⟨(h.settled hdone).1, ?_⟩
          simp [(h.settled hdone).2, AcceptPc.subscribes]
      · exact h
  | acceptStep k => exact h.acceptStep k
  | acceptCancel k => exact h.acceptCancel k
  | shutdown caller code =>
      simp only [Process.step]
      split
      · simp only [Shared.step]
        split
        · exact h
        · rename_i hopen
          refine h.shared ⟨by simp, fun hdone => absurd ?_ hopen⟩ fun _ => rfl
          exact h.closing (by simp [hdone])
      · exact h
  | tick a => exact h.tick a hlate

/-! ## Whole runs -/

/-- **Everyone hears the shutdown**, when the watch is not tripped while
`Session::new` has yet to subscribe for a task, or a call of `accept()` is
between its look at `is_closing` and its subscription.  In every interleaving
of `Session::new`, the background tasks, calls of `accept()` and of `open()`,
the reader and the one shutdown, whoever calls for it: once the shutdown is
complete, every task and every call of `accept()` that waits on a receiver is
woken. -/
theorem shutdown_signal_heard (cfg : Config) (r : Role) (ms : List Move)
    (hrun : Along Process.step (fun p m => p.overtaken m = false) (new cfg r) ms)
    (hdone : (run Process.step (new cfg r) ms).shared.shutdown = .done) :
    (∀ t rx, (run Process.step (new cfg r) ms).tasks t = .waiting rx →
      (run Process.step (new cfg r) ms).watch.changed rx = true) ∧
    ∀ pc ∈ (run Process.step (new cfg r) ms).accepts, ∀ rx,
      pc.receiver? = some rx →
      (run Process.step (new cfg r) ms).watch.changed rx = true := by
  have h : (run Process.step (new cfg r) ms).Attentive :=
    run_invariant Process.step (fun p m hp hlate => hp.step hlate) ms _
      (attentive_new cfg r) hrun
  have hears : ∀ rx, (run Process.step (new cfg r) ms).Hears rx →
      (run Process.step (new cfg r) ms).watch.changed rx = true := by
    intro rx hrx
    unfold Hears at hrx
    rwa [if_pos hdone] at hrx
  exact ⟨fun t rx ht => hears rx (h.tasks t rx ht),
    fun pc hpc rx hrx => hears rx (h.accepts pc hpc rx hrx)⟩

/-- `Session::new` returns, somebody waits in `accept()`, and the session is
closed. -/
def orderlyClose : List Move :=
  [.subscribe, .spawn, .subscribe, .spawn, .subscribe, .spawn, .subscribe,
    .spawn, .finish, .accept, .acceptStep 0, .acceptStep 0, .acceptStep 0,
    .shutdown none .normal, .tick .shutdownStep, .tick .shutdownStep,
    .tick .shutdownStep, .tick .shutdownStep]

theorem shutdown_signal_heard_orderlyClose :
    (run Process.step (new Config.default .client) orderlyClose).tasks .closer =
        .waiting ⟨0⟩ ∧
      (run Process.step (new Config.default .client)
        orderlyClose).watch.changed ⟨0⟩ = true := by
  have hcloser : (run Process.step (new Config.default .client)
      orderlyClose).tasks .closer = .waiting ⟨0⟩ := by
    decide +kernel
  exact ⟨hcloser, (shutdown_signal_heard Config.default .client orderlyClose
    (by decide +kernel) (by decide +kernel)).1 .closer ⟨0⟩ hcloser⟩

/-! ## A closer that was spawned too late -/

/-- The closer waits on a receiver that has seen the trip. -/
structure Deaf (rx : Receiver) (p : Process) : Prop where
  closer : p.tasks .closer = .waiting rx
  done : p.shared.shutdown = .done
  closing : p.shared.session.isClosing = true
  stale : p.watch.changed rx = false
  /-- It is not going to be spawned again. -/
  spawning : .closer ∉ p.spawning
  held : p.held.map Prod.fst ≠ some .closer

theorem Deaf.step {rx : Receiver} (h : p.Deaf rx) (m : Move) :
    (p.step m).Deaf rx := by
  have hended : ∀ t, t ≠ .closer →
      Deaf rx { p with tasks := Function.update p.tasks t .ended } := by
    intro t ht
    refine { h with closer := ?_ }
    simp only [Function.update_of_ne ht.symm]
    exact h.closer
  cases m with
  | subscribe =>
      simp only [Process.step]
      split
      · rename_i t rest hheld hspawn
        have hnot := h.spawning
        rw [hspawn, List.mem_cons, not_or] at hnot
        exact { h with
          spawning := hnot.2
          held := fun hcloser => hnot.1 (Option.some.inj hcloser).symm }
      · exact h
  | spawn =>
      simp only [Process.step]
      split
      · exact h
      · rename_i t rx' hheld
        have ht : Task.closer ≠ t := by
          rintro rfl
          exact h.held (by rw [hheld]; rfl)
        refine { h with closer := ?_, held := by simp }
        simp only [Function.update_of_ne ht]
        exact h.closer
  | finish =>
      simp only [Process.step]
      split
      · exact { h with }
      · exact h
  | wake t =>
      simp only [Process.step]
      split
      · rename_i rx' ht
        split
        · rename_i hwoken
          refine hended t fun hcloser => ?_
          rw [hcloser, h.closer] at ht
          cases ht
          rw [h.stale] at hwoken
          cases hwoken
        · exact h
      · exact h
  | quit t =>
      simp only [Process.step]
      split
      · rename_i ht
        exact hended t ht.1
      · exact h
  | accept =>
      simp only [Process.step]
      split
      · exact { h with }
      · exact h
  | acceptStep k =>
      simp only [Process.step]
      split
      · exact h
      · exact { h with
          closing := (Session.advanceAccept_isClosing ..).trans h.closing }
  | acceptCancel k => exact { h with }
  | shutdown caller code =>
      simp only [Process.step, Shared.step, if_pos h.closing, ite_self]
      exact h
  | tick a =>
      simp only [Process.step]
      split
      · rename_i hok
        by_cases hstep : a = .shutdownStep
        · subst hstep
          have hwatch : p.tripped .shutdownStep = p.watch :=
            if_neg (by simp [h.done])
          rw [hwatch]
          exact { h with
            done := Session.advanceShutdown_done.mpr (.inr h.done)
            closing :=
              (Session.advanceShutdown_isClosing ..).trans h.closing }
        · have hshut : ∀ code, a ≠ .shutdown code := by
            rintro code rfl
            cases hok
          obtain ⟨hsame, hclosing⟩ := p.shared.step_shutdown_same hshut hstep
          rw [tripped_of_ne hstep]
          exact { h with
            done := hsame.trans h.done
            closing := hclosing.trans h.closing }
      · exact h

/-- **A task that has missed the trip never returns**: there is no second one,
and nothing else ends the closer. -/
theorem Deaf.run {rx : Receiver} (h : p.Deaf rx) (ms : List Move) :
    (Lib.Run.run Process.step p ms).tasks .closer = .waiting rx :=
  (run_invariant_all Process.step (fun _ m hp => hp.step m) ms p h).closer

/-- The peer is gone before `Session::new` has spawned the closer, and the
reader shuts the session down. -/
def earlyEof : List Move :=
  [.subscribe, .spawn, .subscribe, .spawn, .shutdown (some .reader) .normal,
    .tick .shutdownStep, .tick .shutdownStep, .tick .shutdownStep,
    .tick .shutdownStep, .subscribe, .spawn, .subscribe, .spawn, .finish]

/-- The session is closed while `accept()` is about to subscribe. -/
def lateAccept : List Move :=
  [.subscribe, .spawn, .subscribe, .spawn, .subscribe, .spawn, .subscribe,
    .spawn, .finish, .accept, .acceptStep 0, .shutdown none .normal,
    .tick .shutdownStep, .tick .shutdownStep, .tick .shutdownStep,
    .tick .shutdownStep,
    .acceptStep 0, .acceptStep 0]

/-- **Two ways to miss the signal.**  After `earlyEof` the shutdown is complete
and the closer waits on a receiver that has seen the trip; it waits after any
further steps, so that `close()` never gets to join it.  After `lateAccept` a
call of `accept()` waits on such a receiver. -/
theorem shutdown_signal_missed :
    (run Process.step (new Config.default .client) earlyEof).Deaf ⟨1⟩ ∧
      (∀ ms, (run Process.step (new Config.default .client)
        (earlyEof ++ ms)).tasks .closer = .waiting ⟨1⟩) ∧
      (run Process.step (new Config.default .client)
        lateAccept).shared.shutdown = .done ∧
      ((run Process.step (new Config.default .client)
        lateAccept).accepts.map AcceptPc.receiver?) = [some ⟨1⟩] ∧
      (run Process.step (new Config.default .client)
        lateAccept).watch.changed ⟨1⟩ = false := by
  have hdeaf : (run Process.step (new Config.default .client)
      earlyEof).Deaf ⟨1⟩ := by
    constructor <;> decide +kernel
  refine ⟨hdeaf, fun ms => ?_, by decide +kernel⟩
  rw [run_append]
  exact hdeaf.run ms

end Process

end NetMux
