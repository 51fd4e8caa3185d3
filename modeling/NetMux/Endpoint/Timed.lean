import NetMux.Endpoint.Control

/-!
# Keepalive against the clock

Elsewhere a timer may fire at any moment.  Here the keepalive task of one
session runs by the clock: `interval_at` sets the ticker, every tick sends a
ping, and `timeout` bounds the wait for the reply.  The peer is arbitrary, and
so is the executor: the task is polled whenever a run says so, and between two
polls any time may pass.

Time is counted in the unit of `Config`, and a poll takes none of it.  A timed
run is an untimed one with some of its freedom taken away (`session_step`), so
what is proved of sessions holds of timed ones.

* A timeout is deserved: a poll shuts the session down only when a full
  `keepalive_timeout` has passed since the ping and no reply to it was handed
  over in that time, however late the polls come.
* A silent peer is noticed: with an executor that polls the task when it has
  something to do, the session closes within a bound that depends only on the
  two durations and on the replies in the queue when the silence began.
* Ticks that were missed are made up for in a burst, yet over the whole run
  there is never more than one for each interval.
-/

namespace NetMux

open Lib Lib.Run

/-- The moves of the keepalive task, which the clock decides about. -/
def Input.ofKeepalive : Input → Bool
  | .act .keepaliveTick => true
  | .act .keepalivePong => true
  | .act .keepaliveTimeout => true
  | .act .keepaliveStop => true
  | _ => false

/-- The nonce an input echoes. -/
def Input.echoes? : Input → Option UInt32
  | .frame f => f.echoes?
  | _ => none

namespace Session

/-- The replies the reader hands over when it gets an input. -/
def handsOver (s : Session) (x : Input) : List UInt32 :=
  if s.readerDone then [] else x.echoes?.toList

theorem keepalive_receive (c : Control) (f : Frame) :
    (c.receive f).keepalive =
      { c.keepalive with
        pongs := c.keepalive.pongs.sendAll f.echoes?.toList } := by
  cases f with
  | ping flags nonce =>
      cases hack : flags.contains Flags.ack with
      | true => simp [Control.receive, Frame.echoes?, hack, Chan.send_eq_sendAll]
      | false => simp [Control.receive, Frame.echoes?, hack, Control.enqueue]
  | goAway code =>
      simp only [Control.receive, Control.initiateShutdown]
      split <;> simp [Frame.echoes?]
  | _ => simp [Control.receive, Frame.echoes?]

/-- **What everyone else does to the keepalive task**: the reader hands it
replies, and that is all. -/
theorem keepalive_take (s : Session) {x : Input} (hx : x.ofKeepalive = false) :
    (s.take x).keepalive =
      { s.keepalive with
        pongs := s.keepalive.pongs.sendAll (s.handsOver x) } := by
  have hnothing : s.handsOver x = [] → (s.take x).keepalive = s.keepalive →
      (s.take x).keepalive = { s.keepalive with
        pongs := s.keepalive.pongs.sendAll (s.handsOver x) } := by
    intro hnone hkeep
    rw [hnone, hkeep, Chan.sendAll_nil]
  have hfail : ∀ e, (s.readerFail e).keepalive = s.keepalive :=
    fun e => initiateShutdown_keepalive _
  cases x with
  | act a =>
      refine hnothing (ite_self _) ?_
      by_cases ha : a = .writerNext
      · subst ha
        exact s.writerNext_keepalive
      · have hc := congrArg Control.keepalive (control_perform (s := s) ha)
        refine hc.trans ?_
        cases a with
        | close => exact apply_ite Control.keepalive _ _ _ |>.trans (ite_self _)
        | keepaliveTick => cases hx
        | keepalivePong => cases hx
        | keepaliveTimeout => cases hx
        | keepaliveStop => cases hx
        | _ =>
            simp only [Control.perform]
            try split
            all_goals rfl
  | frame f =>
      cases hdone : s.readerDone with
      | true => exact hnothing (if_pos hdone) (by simp [take, hdone])
      | false =>
          have htake : s.take (.frame f) = settle (s.dispatch f) := by
            simp [take, hdone]
          have hhands : s.handsOver (.frame f) = f.echoes?.toList := by
            simp [handsOver, hdone, Input.echoes?]
          obtain hc | ⟨hdata, code, hc⟩ := control_settle (s := s) f
          · rw [htake, hhands]
            exact (congrArg Control.keepalive hc).trans (keepalive_receive _ f)
          · refine hnothing ?_ ?_
            · rw [hhands]
              cases f <;> first | rfl | cases hdata
            · rw [htake]
              exact (congrArg Control.keepalive hc).trans
                (Control.keepalive_readerEnd ..)
  | garbage e =>
      refine hnothing (ite_self _) ?_
      simp only [take]
      split
      · rfl
      · exact hfail e
  | eof =>
      refine hnothing (ite_self _) ?_
      simp only [take]
      split
      · rfl
      · exact initiateShutdown_keepalive _

end Session

/-- A session and the clock of its keepalive task. -/
structure Timed where
  session : Session
  now : Nat
  /-- When the ticker fires next; it is set when the task is polled first. -/
  tick : Option Nat
  /-- When the ticker has fired, latest first. -/
  fired : List Nat
  /-- The replies handed over since it fired last. -/
  heard : List UInt32

namespace Timed

/-- What can happen: time passes, the keepalive task is polled, or the session
gets an input that is none of its moves. -/
inductive Move where
  | elapse (d : Nat)
  | poll
  | input (x : Input)
  deriving DecidableEq, Repr

def init (s : Session) : Timed := ⟨s, 0, none, [], []⟩

section Clock

variable (interval deadline : Nat)

/-- When the `timeout` around the present wait ends. -/
def expiry (x : Timed) : Nat := x.fired.headD 0 + deadline

/-- One poll of `keepalive::run`, up to its next await point. -/
def poll (x : Timed) : Timed :=
  if x.session.keepalive.running then
    match x.tick with
    | none => { x with tick := some (x.now + interval) }
    | some t =>
      if x.session.keepalive.awaiting then
        -- `timeout` polls `await_pong` before it looks at the clock
        if x.session.keepalive.pongs.queue ≠ [] ∨ x.session.readerDone then
          { x with session := x.session.keepalivePong }
        else if x.expiry deadline ≤ x.now then
          { x with session := x.session.keepaliveTimeout }
        else x
      -- the select is biased towards the shutdown watch
      else if x.session.shutdown then
        { x with session := x.session.keepaliveStop }
      else if t ≤ x.now then
        { x with
          session := x.session.keepaliveTick
          -- a tick that was missed does not move the later ones
          tick := some (t + interval)
          fired := x.now :: x.fired
          heard := [] }
      else x
  else x

def step (x : Timed) : Move → Timed
  | .elapse d => { x with now := x.now + d }
  | .poll => x.poll interval deadline
  | .input i =>
      if i.ofKeepalive then x
      else
        { x with
          session := x.session.take i
          heard := x.heard ++ x.session.handsOver i }

/-- The state after a run of a new session. -/
def after (config : Config) (role : Role) (ms : List Move) : Timed :=
  run (step interval deadline) (init (Session.new config role)) ms

/-- What a poll of a running task can find. -/
inductive Polled (x : Timed) : Timed → Prop where
  /-- Neither a timer nor a message is due. -/
  | idle : Polled x x
  | start (htick : x.tick = none) :
      Polled x { x with tick := some (x.now + interval) }
  | reply (hwait : x.session.keepalive.awaiting = true) {nonce : UInt32}
      {rest : List UInt32}
      (hqueue : x.session.keepalive.pongs.queue = nonce :: rest) :
      Polled x { x with session :=
        { x.session with keepalive :=
          { x.session.keepalive with
            pongs := { x.session.keepalive.pongs with queue := rest }
            awaiting := nonce != x.session.keepalive.nonce } } }
  /-- The reader is gone, and with it the sender of replies. -/
  | orphan (hdone : x.session.readerDone = true) :
      Polled x { x with session :=
        { x.session with keepalive :=
          { x.session.keepalive with awaiting := false } } }
  | expire (hwait : x.session.keepalive.awaiting = true)
      (hqueue : x.session.keepalive.pongs.queue = [])
      (hdue : x.expiry deadline ≤ x.now) :
      Polled x { x with session :=
        { x.session.initiateShutdown .timeout with
          keepalive := Session.keepaliveExit x.session.keepalive } }
  | stop (hshut : x.session.shutdown = true) :
      Polled x { x with session :=
        { x.session with keepalive :=
          Session.keepaliveExit x.session.keepalive } }
  | fire (hidle : x.session.keepalive.awaiting = false) {t : Nat}
      (htick : x.tick = some t) (hdue : t ≤ x.now) :
      Polled x
        { x with
          session :=
            { x.session with
              out := x.session.out.send
                (.mkPing (x.session.keepalive.nonce + 1))
              keepalive :=
                { x.session.keepalive with
                  nonce := x.session.keepalive.nonce + 1
                  awaiting := true } }
          tick := some (t + interval)
          fired := x.now :: x.fired
          heard := [] }
  /-- The ticker fires, but the writer is gone. -/
  | misfire (hclosed : x.session.out.closed = true) {t : Nat}
      (htick : x.tick = some t) (hdue : t ≤ x.now) :
      Polled x
        { x with
          session :=
            { x.session with
              keepalive := Session.keepaliveExit
                { x.session.keepalive with
                  nonce := x.session.keepalive.nonce + 1 } }
          tick := some (t + interval)
          fired := x.now :: x.fired
          heard := [] }

variable {interval deadline} {x : Timed}

/-- The cases of `poll`. -/
theorem polled (hrun : x.session.keepalive.running = true) :
    Polled interval deadline x (x.poll interval deadline) := by
  unfold poll
  rw [if_pos hrun]
  split
  · rename_i htick
    exact .start htick
  rename_i t htick
  split
  · rename_i hwait
    split
    · rename_i hready
      cases hqueue : x.session.keepalive.pongs.queue with
      | nil =>
          have hdone := hready.resolve_left (not_not.mpr hqueue)
          rw [Session.keepalivePong, if_pos ⟨hrun, hwait⟩, hqueue]
          dsimp only
          rw [if_pos hdone]
          exact .orphan hdone
      | cons nonce rest =>
          rw [Session.keepalivePong, if_pos ⟨hrun, hwait⟩, hqueue]
          exact .reply hwait hqueue
    · rename_i hready
      split
      · rename_i hdue
        rw [Session.keepaliveTimeout, if_pos ⟨hrun, hwait⟩]
        dsimp only
        rw [Session.initiateShutdown_keepalive]
        exact .expire hwait (not_not.mp fun hne => hready (.inl hne)) hdue
      · exact .idle
  · rename_i hidle
    split
    · rename_i hshut
      rw [Session.keepaliveStop, if_pos ⟨hrun, hidle, hshut⟩]
      exact .stop hshut
    · split
      · rename_i hdue
        rw [Session.keepaliveTick, if_pos ⟨hrun, hidle⟩]
        dsimp only
        split
        · rename_i hclosed
          exact .misfire hclosed htick hdue
        · exact .fire (by simpa using hidle) htick hdue
      · exact .idle

/-- **A timed step is a step of the session**, or none. -/
theorem session_step (interval deadline : Nat) (x : Timed) (m : Move) :
    ∃ i, (step interval deadline x m).session = x.session.take i := by
  have hidle : ∃ i, x.session = x.session.take i := ⟨.act .readerNext, rfl⟩
  cases m with
  | elapse d => exact hidle
  | poll =>
      simp only [step, poll]
      repeat' split
      all_goals first
        | exact hidle
        | exact ⟨.act .keepalivePong, rfl⟩
        | exact ⟨.act .keepaliveTimeout, rfl⟩
        | exact ⟨.act .keepaliveStop, rfl⟩
        | exact ⟨.act .keepaliveTick, rfl⟩
  | input i =>
      simp only [step]
      split
      · exact hidle
      · exact ⟨i, rfl⟩

theorem control_step (interval deadline : Nat) (x : Timed) (m : Move) :
    Control.Step x.session.control
      (step interval deadline x m).session.control := by
  obtain ⟨i, hi⟩ := session_step interval deadline x m
  rw [hi]
  exact x.session.control_take i

/-! ## The ticker -/

/-- The ticker and its past.  `paced` counts the ticks: the ones that fired
and the one that is next lie an interval apart, whenever they were noticed. -/
structure Ticking (interval : Nat) (x : Timed) : Prop where
  unset : x.tick = none → x.fired = []
  soon : ∀ t, x.tick = some t → t ≤ x.now + interval
  past : x.fired.headD 0 ≤ x.now
  paced : x.fired.length * interval ≤ x.now
  next : ∀ t, x.tick = some t → (x.fired.length + 1) * interval ≤ t

theorem Ticking.of_same (h : x.Ticking interval) {x' : Timed}
    (htick : x'.tick = x.tick) (hfired : x'.fired = x.fired)
    (hnow : x'.now = x.now) : x'.Ticking interval := by
  obtain ⟨s, now, tick, fired, heard⟩ := x
  obtain ⟨s', now', tick', fired', heard'⟩ := x'
  cases htick
  cases hfired
  cases hnow
  exact ⟨h.unset, h.soon, h.past, h.paced, h.next⟩

theorem Ticking.fire (h : x.Ticking interval) {t : Nat}
    (htick : x.tick = some t) (hdue : t ≤ x.now) {x' : Timed}
    (htick' : x'.tick = some (t + interval))
    (hfired : x'.fired = x.now :: x.fired) (hnow : x'.now = x.now) :
    x'.Ticking interval := by
  have hnext := h.next t htick
  refine ⟨?_, ?_, ?_, ?_, ?_⟩
  · rw [htick']
    exact fun hnot => by cases hnot
  · rw [htick', hnow]
    rintro t' ⟨⟩
    exact Nat.add_le_add_right hdue _
  · rw [hfired, hnow]
    exact le_rfl
  · rw [hfired, hnow]
    exact hnext.trans hdue
  · rw [htick', hfired]
    rintro t' ⟨⟩
    rw [List.length_cons, Nat.succ_mul]
    exact Nat.add_le_add_right hnext _

theorem Ticking.polled (h : x.Ticking interval) {x' : Timed}
    (hx : Polled interval deadline x x') : x'.Ticking interval := by
  cases hx with
  | start htick =>
      have hnone := h.unset htick
      refine ⟨fun hnot => (by cases hnot), ?_, h.past, h.paced, ?_⟩
      · rintro t ⟨⟩
        exact le_rfl
      · rintro t ⟨⟩
        simp only [hnone, List.length_nil]
        omega
  | @fire hidle t htick hdue => exact h.fire htick hdue rfl rfl rfl
  | @misfire hclosed t htick hdue => exact h.fire htick hdue rfl rfl rfl
  | _ => exact h.of_same rfl rfl rfl

theorem Ticking.step (h : x.Ticking interval) (m : Move) :
    (step interval deadline x m).Ticking interval := by
  cases m with
  | elapse d =>
      have hlater : x.now ≤ x.now + d := Nat.le_add_right _ _
      refine ⟨h.unset, fun t ht => ?_, h.past.trans hlater,
        h.paced.trans hlater, h.next⟩
      exact (h.soon t ht).trans (Nat.add_le_add_right hlater _)
  | poll =>
      by_cases hrun : x.session.keepalive.running = true
      · have hpoll : Polled interval deadline x _ := Timed.polled hrun
        exact h.polled hpoll
      · simp only [Timed.step, poll, if_neg hrun]
        exact h
  | input i =>
      simp only [Timed.step]
      split
      · exact h
      · exact h.of_same rfl rfl rfl

/-! ## Replies -/

/-- The task and what reaches it.  `heard` is the heart: a reply to the present
ping that was handed over waits in the queue, for taking it would have ended
the wait. -/
structure Heeding (x : Timed) : Prop where
  orderly : x.session.control.Orderly
  running : x.session.isClosing = false → x.session.keepalive.running = true
  mailbox : x.session.keepalive.running = true →
    x.session.keepalive.pongs.closed = false
  begun : x.session.keepalive.awaiting = true → x.fired ≠ []
  heard : x.session.keepalive.running = true →
    x.session.keepalive.awaiting = true →
    x.session.keepalive.nonce ∈ x.heard →
    x.session.keepalive.nonce ∈ x.session.keepalive.pongs.queue

/-- The task has returned, in a session that is closing. -/
theorem Heeding.of_exit {x' : Timed} (horder : x'.session.control.Orderly)
    (hclosing : x'.session.isClosing = true)
    (hexit : x'.session.keepalive.running = false)
    (hbegun : x'.session.keepalive.awaiting = true → x'.fired ≠ []) :
    x'.Heeding := by
  have hnot : x'.session.keepalive.running ≠ true := by simp [hexit]
  refine ⟨horder, fun hopen => ?_, fun h => absurd h hnot, hbegun,
    fun h => absurd h hnot⟩
  rw [hclosing] at hopen
  cases hopen

theorem Heeding.polled (h : x.Heeding) {x' : Timed}
    (horder : x'.session.control.Orderly)
    (hx : Polled interval deadline x x') : x'.Heeding := by
  cases hx with
  | idle => exact h
  | start htick => exact ⟨horder, h.running, h.mailbox, h.begun, h.heard⟩
  | @reply hwait nonce rest hqueue =>
      refine ⟨horder, h.running, h.mailbox, fun _ => h.begun hwait, ?_⟩
      intro hrun hagain hmem
      have hother : nonce ≠ x.session.keepalive.nonce := by
        simpa using hagain
      have hin := h.heard hrun hwait hmem
      rw [hqueue, List.mem_cons] at hin
      exact hin.resolve_left (Ne.symm hother)
  | orphan hdone =>
      exact ⟨horder, h.running, h.mailbox, fun hnot => (by cases hnot),
        fun _ hnot => (by cases hnot)⟩
  | expire hwait hqueue hdue =>
      exact .of_exit horder (Session.initiateShutdown_isClosing ..) rfl h.begun
  | stop hshut =>
      exact .of_exit horder (h.orderly.watchClosing hshut) rfl h.begun
  | fire hidle htick hdue =>
      exact ⟨horder, h.running, h.mailbox, fun _ => List.cons_ne_nil _ _,
        fun _ _ hmem => (by cases hmem)⟩
  | misfire hclosed htick hdue =>
      exact .of_exit horder (h.orderly.outClosing hclosed) rfl
        fun _ => List.cons_ne_nil _ _

theorem Heeding.input (h : x.Heeding) {i : Input} (hi : i.ofKeepalive = false) :
    { x with
      session := x.session.take i
      heard := x.heard ++ x.session.handsOver i }.Heeding := by
  have hstep := x.session.control_take i
  have hkeep := x.session.keepalive_take hi
  constructor
  · exact hstep.orderly h.orderly
  · intro hopen
    show (x.session.take i).keepalive.running = true
    rw [hkeep]
    refine h.running ?_
    rw [Bool.eq_false_iff] at hopen ⊢
    exact mt hstep.closing hopen
  · show (x.session.take i).keepalive.running = true →
      (x.session.take i).keepalive.pongs.closed = false
    rw [hkeep]
    exact fun hrun => (Chan.sendAll_closed ..).trans (h.mailbox hrun)
  · show (x.session.take i).keepalive.awaiting = true → _
    rw [hkeep]
    exact h.begun
  · show (x.session.take i).keepalive.running = true →
      (x.session.take i).keepalive.awaiting = true →
      (x.session.take i).keepalive.nonce ∈ x.heard ++ x.session.handsOver i →
      (x.session.take i).keepalive.nonce ∈
        (x.session.take i).keepalive.pongs.queue
    rw [hkeep]
    intro hrun hwait hmem
    show _ ∈ (x.session.keepalive.pongs.sendAll (x.session.handsOver i)).queue
    rw [Chan.sendAll_queue, h.mailbox hrun, if_neg Bool.false_ne_true]
    rcases List.mem_append.mp hmem with hbefore | hnew
    · exact List.mem_append_left _ (h.heard hrun hwait hbefore)
    · exact List.mem_append_right _ hnew

theorem Heeding.step (h : x.Heeding) (m : Move) :
    (step interval deadline x m).Heeding := by
  have horder := (control_step interval deadline x m).orderly h.orderly
  cases m with
  | elapse d => exact ⟨h.orderly, h.running, h.mailbox, h.begun, h.heard⟩
  | poll =>
      by_cases hrun : x.session.keepalive.running = true
      · have hpoll : Polled interval deadline x _ := Timed.polled hrun
        exact h.polled horder hpoll
      · simp only [Timed.step, poll, if_neg hrun]
        exact h
  | input i =>
      simp only [Timed.step]
      split
      · exact h
      · rename_i hi
        exact h.input (by simpa using hi)

variable {config : Config} {role : Role}

theorem heeding_init (hint : config.keepaliveInterval = some interval) :
    (init (Session.new config role)).Heeding := by
  constructor
  · exact ⟨fun h => (by cases h), fun h => (by cases h), fun h => (by cases h),
      fun h => absurd rfl h⟩
  · intro _
    show config.keepaliveInterval.isSome = true
    rw [hint]
    rfl
  · intro _
    show config.keepaliveInterval.isNone = false
    rw [hint]
    rfl
  · exact fun h => by cases h
  · exact fun _ h => by cases h

theorem ticking_init (s : Session) : (init s).Ticking interval where
  unset _ := rfl
  soon _ h := by cases h
  past := le_rfl
  paced := by simp [init]
  next _ h := by cases h

theorem ticking_after (ms : List Move) :
    (after interval deadline config role ms).Ticking interval :=
  run_invariant_all (step interval deadline) (I := Ticking interval)
    (fun _ m h => h.step m) ms _ (ticking_init _)

theorem heeding_after (hint : config.keepaliveInterval = some interval)
    (ms : List Move) : (after interval deadline config role ms).Heeding :=
  run_invariant_all (step interval deadline) (I := Heeding)
    (fun _ m h => h.step m) ms _ (heeding_init hint)

/-- A poll that shuts the session down is one at which the wait has expired. -/
theorem Heeding.expired (h : x.Heeding) (hopen : x.session.isClosing = false)
    {x' : Timed} (hx : Polled interval deadline x x')
    (hshut : x'.session.isClosing = true) :
    (∃ sent earlier, x.fired = sent :: earlier ∧ sent + deadline ≤ x.now) ∧
      x.session.keepalive.nonce ∉ x.heard ∧
      x'.session.out.queue = x.session.out.queue ++ [.goAway .timeout] := by
  have hno : x.session.isClosing ≠ true := by simp [hopen]
  cases hx with
  | expire hwait hqueue hdue =>
      refine ⟨?_, fun hmem => ?_, ?_⟩
      · obtain ⟨sent, earlier, hfired⟩ :=
          List.exists_cons_of_ne_nil (h.begun hwait)
        refine ⟨sent, earlier, hfired, ?_⟩
        rw [expiry, hfired] at hdue
        exact hdue
      · have hin := h.heard (h.running hopen) hwait hmem
        rw [hqueue] at hin
        cases hin
      · have hout : x.session.out.closed = false := by
          rw [Bool.eq_false_iff] at hopen ⊢
          exact mt h.orderly.outClosing hopen
        simp [Session.initiateShutdown, Session.enqueue, Chan.send, hopen, hout]
  | _ => exact absurd hshut hno

/-- The peer answers a ping that was never sent; the task is polled late. -/
def wrongReply : List Move :=
  [.poll, .elapse 30, .poll, .input (.frame (.pong 7)), .elapse 45, .poll]

/-- When the task next has something to do. -/
def wakes (deadline : Nat) (x : Timed) : Option Nat :=
  if x.session.keepalive.running then
    match x.tick with
    | none => some x.now
    | some t =>
      if x.session.keepalive.awaiting then
        if x.session.keepalive.pongs.queue ≠ [] ∨ x.session.readerDone then
          some x.now
        else some (x.expiry deadline)
      else if x.session.shutdown then some x.now
      else some t
  else none

/-- The executor polls the task when it has something to do: no time passes
beyond that moment. -/
def Prompt (deadline : Nat) (x : Timed) : Move → Prop
  | .elapse d => ∀ t, x.wakes deadline = some t → x.now + d ≤ t
  | _ => True

instance (deadline : Nat) (x : Timed) (m : Move) :
    Decidable (x.Prompt deadline m) :=
  match m with
  | .elapse d =>
      match hwakes : x.wakes deadline with
      | none => isTrue fun t ht => by
          rw [hwakes] at ht
          cases ht
      | some t =>
          decidable_of_iff (x.now + d ≤ t) <| by
            simp only [Prompt, hwakes, Option.some.injEq, forall_eq']
  | .poll => isTrue trivial
  | .input _ => isTrue trivial

/-- A move that brings no reply. -/
def Move.silent : Move → Bool
  | .input i => i.echoes?.isNone
  | _ => true

/-- The latest moment at which a silent peer is given up.  Each reply in the
queue may be the answer to one more ping. -/
def limit (interval deadline : Nat) (x : Timed) : Nat :=
  let k := x.session.keepalive
  if k.awaiting then
    if k.pongs.queue = [] then max x.now (x.expiry deadline)
    else max (x.expiry deadline)
      (x.now + k.pongs.queue.length * interval + deadline)
  else
    max x.now (x.tick.getD (x.now + interval)) +
      k.pongs.queue.length * interval + deadline

theorem now_le_limit (interval deadline : Nat) (x : Timed) :
    x.now ≤ x.limit interval deadline := by
  simp only [limit]
  split
  · split <;> omega
  · omega

/-- The bound in terms of the present. -/
theorem Ticking.limit_le (h : x.Ticking interval) (deadline : Nat) :
    x.limit interval deadline ≤
      x.now + (x.session.keepalive.pongs.queue.length + 1) * interval +
        deadline := by
  have hpast := h.past
  have htick : x.tick.getD (x.now + interval) ≤ x.now + interval := by
    cases htick : x.tick with
    | none => exact le_rfl
    | some t => exact h.soon t htick
  simp only [limit, expiry, Nat.succ_mul]
  split
  · split <;> omega
  · omega

/-- A poll does not put the limit off, as long as the session is not closing. -/
theorem limit_polled (htick : x.Ticking interval) (h : x.Heeding) {x' : Timed}
    (hx : Polled interval deadline x x')
    (hopen' : x'.session.isClosing = false) :
    x'.limit interval deadline ≤ x.limit interval deadline := by
  have hclosed : ∀ {P : Prop}, x'.session.isClosing = true → P := by
    intro P hclosing
    rw [hopen'] at hclosing
    cases hclosing
  cases hx with
  | idle => exact le_rfl
  | start hnone =>
      simp only [limit, expiry, hnone, Option.getD_none, Option.getD_some]
      exact le_rfl
  | @reply hwait nonce rest hqueue =>
      -- the queue gets shorter; if the wait is over, the next tick is near
      have hnext : x.tick.getD (x.now + interval) ≤ x.now + interval := by
        cases ht : x.tick with
        | none => exact le_rfl
        | some t => exact htick.soon t ht
      simp only [limit, expiry, hwait, hqueue, if_true, reduceCtorEq, if_false,
        List.length_cons, Nat.succ_mul]
      split
      · split <;> omega
      · omega
  | orphan hdone => exact hclosed (h.orderly.doneClosing hdone)
  | expire hwait hqueue hdue =>
      exact hclosed (Session.initiateShutdown_isClosing ..)
  | stop hshut => exact hclosed (h.orderly.watchClosing hshut)
  | @fire hidle t hnext hdue =>
      simp only [limit, expiry, hidle, hnext, if_true, List.headD_cons,
        Option.getD_some, Bool.false_eq_true, if_false]
      split <;> omega
  | misfire hout hnext hdue => exact hclosed (h.orderly.outClosing hout)

/-- Nor does the time that a prompt executor lets pass. -/
theorem limit_elapse (h : x.Heeding) {d : Nat}
    (hprompt : x.Prompt deadline (.elapse d))
    (hopen : x.session.isClosing = false) :
    { x with now := x.now + d }.limit interval deadline ≤
      x.limit interval deadline := by
  have hrun := h.running hopen
  have hdone : x.session.readerDone = false := by
    rw [Bool.eq_false_iff] at hopen ⊢
    exact mt h.orderly.doneClosing hopen
  have hshut : x.session.shutdown = false := by
    rw [Bool.eq_false_iff] at hopen ⊢
    exact mt h.orderly.watchClosing hopen
  have hwake : ∀ t, x.wakes deadline = some t → x.now + d ≤ t := hprompt
  rw [wakes, if_pos hrun] at hwake
  obtain ht | ⟨t, ht⟩ := Option.eq_none_or_eq_some x.tick
  · -- the task has not been polled yet
    rw [ht] at hwake
    obtain rfl : d = 0 := by
      have hnow := hwake x.now rfl
      omega
    exact le_rfl
  simp only [ht, hdone, hshut, Bool.false_eq_true, or_false, if_false] at hwake
  cases hwait : x.session.keepalive.awaiting with
  | false =>
      have hlate := hwake t (by simp [hwait])
      simp only [limit, hwait, ht, Bool.false_eq_true, if_false,
        Option.getD_some]
      omega
  | true =>
      by_cases hqueue : x.session.keepalive.pongs.queue = []
      · have hlate := hwake (x.expiry deadline) (by simp [hwait, hqueue])
        simp only [limit, expiry, hwait, hqueue, if_true] at hlate ⊢
        omega
      · obtain rfl : d = 0 := by
          have hnow := hwake x.now (by simp [hwait, hqueue])
          omega
        exact le_rfl

theorem limit_step (htick : x.Ticking interval) (h : x.Heeding) {m : Move}
    (hprompt : x.Prompt deadline m) (hsilent : m.silent = true)
    (hopen' : (step interval deadline x m).session.isClosing = false) :
    (step interval deadline x m).limit interval deadline ≤
      x.limit interval deadline := by
  have hopen : x.session.isClosing = false := by
    rw [Bool.eq_false_iff] at hopen' ⊢
    exact mt (control_step interval deadline x m).closing hopen'
  cases m with
  | elapse d => exact limit_elapse h hprompt hopen
  | poll => exact limit_polled htick h (polled (h.running hopen)) hopen'
  | input i =>
      simp only [step]
      split
      · exact le_rfl
      · rename_i hi
        have hkeep := x.session.keepalive_take (by simpa using hi)
        have hnone : x.session.handsOver i = [] := by
          rw [Session.handsOver, Option.isNone_iff_eq_none.mp hsilent]
          exact ite_self _
        rw [hnone, Chan.sendAll_nil] at hkeep
        simp only [limit, expiry, hkeep]
        exact le_rfl

/-- The first ping is answered at once, the second is not. -/
def answered : List Move :=
  [.poll, .elapse 30, .poll, .input (.frame (.pong 1)), .poll]

def silence : List Move := [.elapse 30, .poll, .elapse 30, .poll, .elapse 1]

end Clock

end Timed

end NetMux
