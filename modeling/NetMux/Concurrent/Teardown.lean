import NetMux.Concurrent.Polling
import NetMux.Lib.Interleave

/-!
# The last word of a stream

A stream says goodbye with a `FIN` or a `RST`, and `fin_sent` is there so that
it does so once.  The `FIN` is sent by the task that holds the handle, a `RST`
by that task or by the session's reader, and meanwhile the peer may reset the
stream and the session may force it closed.  Every load, swap and send of these
calls is a step of its own here, and so are those of `poll_read` and
`poll_write`.

The polls and the drop of a handle take it exclusively, so there is one call on
the handle at a time (`HandlePc`); the other calls are any number of `Notifier`s
as in `Polling`.  A `Voice` is what matters of a stream for what it may still
say, and `Voice.Step` lists everything that can happen to it.

## Main results

* `last_word` — one goodbye at most; after a `FIN` come only window updates,
  after a `RST` at most the one frame of a poll that was under way.
* `goodbye_said` — unless the peer or the session put an end to the stream, at
  rest the peer has been told exactly when the write half is closed.
* `write_alone`, `fin_alone`, `drop_alone` — without interference the steps add
  up to the calls as `StreamInner` has them.
-/

namespace NetMux

open Lib Lib.Run

/-- A `FIN` or a `RST`. -/
def Frame.isGoodbye : Frame → Bool
  | .data _ flags _ => flags.contains Flags.fin || flags.contains Flags.rst
  | _ => false

/-- A `WindowUpdate`. -/
def Frame.isCredit : Frame → Bool
  | .windowUpdate .. => true
  | _ => false

/-! ## What a stream may still say -/

/-- What a stream has said, and what bears on what it may say. -/
structure Voice where
  frames : List Frame
  finSent : Bool
  reset : Bool
  writeOpen : Bool
  /-- The call on the handle is a `poll_write` that has found the write half
  open. -/
  writing : Bool
  /-- It has found the stream not reset, and may yet send a frame. -/
  pending : Bool

namespace Voice

/-- **Everything that can happen.** -/
inductive Step (id : StreamId) (v : Voice) : Voice → Prop where
  | hush {v' : Voice} (hframes : v'.frames = v.frames)
      (hsent : v'.finSent = v.finSent)
      (hreset : v.reset = true → v'.reset = true)
      (hshut : v.writeOpen = false → v'.writeOpen = false)
      (hwriting : v'.writing = true → v.writing = true ∨ v.writeOpen = true)
      (hpending : v'.pending = true → v.pending = true ∨ v.reset = false) :
      Step id v v'
  | data (payload : Bytes) (hwriting : v.writing = true)
      (hpending : v.pending = true) :
      Step id v { v with
        frames := v.frames ++ [.data id Flags.empty payload]
        writing := false
        pending := false }
  | credit (delta : UInt32) (hpending : v.pending = true) :
      Step id v { v with
        frames := v.frames ++ [.mkWindowUpdate id delta]
        pending := false }
  | fin (hsent : v.finSent = false) (hshut : v.writeOpen = false)
      (hwriting : v.writing = false) :
      Step id v { v with frames := v.frames ++ [.fin id], finSent := true }
  | rst (hsent : v.finSent = false) (hreset : v.reset = true) :
      Step id v { v with frames := v.frames ++ [.rst id], finSent := true }

/-- The end of what a stream says. -/
inductive Ending (id : StreamId) (v : Voice) (spoken : List Frame) : Prop where
  | fin (later : List Frame) (hframes : v.frames = spoken ++ .fin id :: later)
      (hshut : v.writeOpen = false) (hwriting : v.writing = false)
      (hlater : ∀ f ∈ later, f.isCredit = true)
  | rst (later : List Frame) (hframes : v.frames = spoken ++ .rst id :: later)
      (hreset : v.reset = true) (hlater : ∀ f ∈ later, f.isGoodbye = false)
      (hlate : later.length + v.pending.toNat ≤ 1)

/-- What was said so far is in order. -/
structure Decent (id : StreamId) (v : Voice) : Prop where
  before : v.finSent = false → ∀ f ∈ v.frames, f.isGoodbye = false
  ended : v.finSent = true → ∃ spoken : List Frame,
    (∀ f ∈ spoken, f.isGoodbye = false) ∧ Ending id v spoken

variable {id : StreamId} {v v' : Voice}

/-- A reset is not taken back. -/
theorem Step.reset (hstep : Step id v v') (h : v.reset = true) :
    v'.reset = true := by
  cases hstep with
  | hush _ _ hreset => exact hreset h
  | _ => exact h

theorem forall_concat_goodbye {fs : List Frame} {f : Frame}
    (hfs : ∀ g ∈ fs, g.isGoodbye = false) (hf : f.isGoodbye = false) :
    ∀ g ∈ fs ++ [f], g.isGoodbye = false := by
  intro g hg
  rcases List.mem_append.mp hg with hg | hg
  · exact hfs g hg
  · rwa [List.mem_singleton.mp hg]

theorem Ending.hush {spoken : List Frame} (h : Ending id v spoken)
    (hframes : v'.frames = v.frames)
    (hreset : v.reset = true → v'.reset = true)
    (hshut : v.writeOpen = false → v'.writeOpen = false)
    (hwriting : v'.writing = true → v.writing = true ∨ v.writeOpen = true)
    (hpending : v'.pending = true → v.pending = true ∨ v.reset = false) :
    Ending id v' spoken := by
  cases h with
  | fin later hsaid hclosed hidle hlater =>
      refine .fin later (hframes.trans hsaid) (hshut hclosed) ?_ hlater
      rw [Bool.eq_false_iff]
      intro hw
      rcases hwriting hw with hw | hopen
      · simp [hidle] at hw
      · simp [hclosed] at hopen
  | rst later hsaid hset hlater hlate =>
      refine .rst later (hframes.trans hsaid) (hreset hset) hlater ?_
      cases hp : v'.pending with
      | false => exact le_trans (by simp) hlate
      | true =>
          rcases hpending hp with hp | hnot
          · simpa [hp] using hlate
          · simp [hset] at hnot

/-- **Each step keeps the order.** -/
theorem Step.decent (hstep : Step id v v') (h : v.Decent id) :
    v'.Decent id := by
  cases hstep with
  | hush hframes hsent hreset hshut hwriting hpending =>
      refine ⟨?_, ?_⟩
      · rw [hsent, hframes]
        exact h.before
      · rw [hsent]
        intro hdone
        obtain ⟨spoken, hspoken, hend⟩ := h.ended hdone
        exact ⟨spoken, hspoken,
          hend.hush hframes hreset hshut hwriting hpending⟩
  | data payload hwriting hpending =>
      refine ⟨fun hnot => forall_concat_goodbye (h.before hnot) rfl, ?_⟩
      intro hdone
      obtain ⟨spoken, hspoken, hend⟩ := h.ended hdone
      refine ⟨spoken, hspoken, ?_⟩
      cases hend with
      | fin later hsaid hclosed hidle hlater => simp [hidle] at hwriting
      | rst later hsaid hset hlater hlate =>
          have hnone : later = [] := by
            rw [hpending] at hlate
            simpa using hlate
          exact .rst [.data id Flags.empty payload] (by simp [hsaid, hnone])
            hset (by simp [Frame.isGoodbye]; decide) (by simp)
  | credit delta hpending =>
      refine ⟨fun hnot => forall_concat_goodbye (h.before hnot) rfl, ?_⟩
      intro hdone
      obtain ⟨spoken, hspoken, hend⟩ := h.ended hdone
      refine ⟨spoken, hspoken, ?_⟩
      cases hend with
      | fin later hsaid hclosed hidle hlater =>
          refine .fin (later ++ [.mkWindowUpdate id delta]) (by simp [hsaid])
            hclosed hidle fun f hf => ?_
          rcases List.mem_append.mp hf with hf | hf
          · exact hlater f hf
          · rw [List.mem_singleton.mp hf]
            rfl
      | rst later hsaid hset hlater hlate =>
          have hnone : later = [] := by
            rw [hpending] at hlate
            simpa using hlate
          exact .rst [.mkWindowUpdate id delta] (by simp [hsaid, hnone])
            hset (by simp [Frame.mkWindowUpdate, Frame.isGoodbye]) (by simp)
  | fin hsent hshut hwriting =>
      refine ⟨fun hnot => (by cases hnot), fun _ => ?_⟩
      exact ⟨v.frames, h.before hsent,
        .fin [] rfl hshut hwriting fun _ hf => absurd hf List.not_mem_nil⟩
  | rst hsent hreset =>
      refine ⟨fun hnot => (by cases hnot), fun _ => ?_⟩
      refine ⟨v.frames, h.before hsent,
        .rst [] rfl hreset (fun _ hf => absurd hf List.not_mem_nil) ?_⟩
      simpa using Bool.toNat_le v.pending

end Voice

/-! ## The calls on the handle -/

/-- A call on the handle, by what it does next. -/
inductive HandlePc where
  | idle
  | read (pc : ReadPc)
  /-- `poll_write`: read `reset`. -/
  | resetCheck (buf : Bytes)
  /-- Read `write_open`. -/
  | openCheck (buf : Bytes)
  | acquire (buf : Bytes) (pc : AcquirePc)
  | send (buf : Bytes) (n : UInt32)
  /-- The writer is gone: give the credit back, then close the write half. -/
  | refund (todo : List Prim)
  | wrote (result : Poll (Except IoError Nat))
  /-- `local_fin`, called by itself or in a `drop`: read `reset`. -/
  | finReset (drop : Bool)
  /-- Swap `write_open`. -/
  | finWrite (drop : Bool)
  /-- Swap `fin_sent` and send the `FIN`. -/
  | finSend (drop : Bool)
  /-- `on_user_drop`: read `write_open`. -/
  | dropOpen
  /-- Read `reset`. -/
  | dropReset
  /-- Ask the closer to drop the stream. -/
  | dropClose
  | gone

namespace HandlePc

/-- No call is under way. -/
def free : HandlePc → Bool
  | idle | wrote _ | read .idle | read (.done _) => true
  | _ => false

/-- No call is under way, and there may be none to come. -/
def returned : HandlePc → Bool
  | gone => true
  | pc => pc.free

/-- What follows `local_fin`. -/
def afterFin (drop : Bool) : HandlePc := if drop then .dropClose else .idle

/-- A `poll_write` past its look at `write_open`. -/
def writing : HandlePc → Bool
  | acquire _ _ | send _ _ => true
  | _ => false

/-- A poll past its look at `reset` that may yet send a frame. -/
def pending : HandlePc → Bool
  | openCheck _ | acquire _ _ | send _ _ => true
  | read (.drain _ _) | read (.consume _) => true
  | _ => false

end HandlePc

/-- A stream, the call on its handle and the other calls. -/
structure Speaker where
  live : Live
  /-- Whether the outbound queue still has a receiver. -/
  outOpen : Bool
  handle : HandlePc
  others : List Notifier

namespace Speaker

def new (s : StreamInner) : Speaker := ⟨.new s, true, .idle, []⟩

/-- How much a `poll_write` asks for. -/
def want (config : Config) (buf : Bytes) : UInt32 :=
  UInt32.ofNat (min (min buf.length config.maxFrameSize.toNat) (2 ^ 32 - 1))

/-- One atomic step of the call on the handle. -/
def handleNext (spurious : Bool) (x : Speaker) : Speaker :=
  match x.handle with
  | .idle => x
  | .wrote _ => x
  | .gone => x
  | .read pc =>
      { x with
        live := (x.live.readNext pc).1
        handle := .read (x.live.readNext pc).2 }
  | .resetCheck buf =>
      { x with handle :=
        if x.live.inner.state.reset then
          .wrote (.ready (.error StreamInner.resetError))
        else .openCheck buf }
  | .openCheck buf =>
      { x with handle :=
        if !x.live.inner.state.writeOpen then
          .wrote (.ready (.error ⟨.brokenPipe, "write half closed"⟩))
        else if buf.isEmpty then .wrote (.ready (.ok 0))
        else .acquire buf (.closedCheck (want x.live.inner.config buf)) }
  | .acquire _ (.done .closed) =>
      { x with
        handle :=
          .wrote (.ready (.error ⟨.brokenPipe, "send window closed"⟩)) }
  | .acquire _ (.done .pending) => { x with handle := .wrote .pending }
  | .acquire buf (.done (.acquired n)) => { x with handle := .send buf n }
  | .acquire buf pc =>
      { x with
        live := (x.live.acquireNext spurious pc).1
        handle := .acquire buf (x.live.acquireNext spurious pc).2 }
  | .send buf n =>
      if x.outOpen then
        { x with
          live := x.live.emit
            ⟨[.data x.live.inner.id Flags.empty (buf.take n.toNat)], []⟩
          handle := .wrote (.ready (.ok n.toNat)) }
      else { x with handle := .refund (Notify.grant n).program }
  | .refund [] =>
      { x with
        live := x.live.setState x.live.inner.state.closeWrite.2
        handle :=
          .wrote (.ready (.error ⟨.brokenPipe, "session is shutting down"⟩)) }
  | .refund (p :: rest) =>
      { x with
        live := (p.exec spurious x.live).1
        handle := .refund ((p.exec spurious x.live).2.1 ++ rest) }
  | .finReset drop =>
      { x with handle :=
        if x.live.inner.state.reset then .afterFin drop else .finWrite drop }
  | .finWrite drop =>
      { x with
        live := x.live.setState x.live.inner.state.closeWrite.2
        handle :=
          if x.live.inner.state.closeWrite.1 then .finSend drop
          else .afterFin drop }
  | .finSend drop =>
      if x.live.inner.finSent then { x with handle := .afterFin drop }
      else
        { x with
          live :=
            ({ x.live with inner := { x.live.inner with finSent := true } } :
              Live).emit ⟨[.fin x.live.inner.id], []⟩
          handle := .afterFin drop }
  | .dropOpen =>
      { x with handle :=
        if x.live.inner.state.writeOpen then .dropReset else .dropClose }
  | .dropReset =>
      { x with handle :=
        if x.live.inner.state.reset then .dropClose else .finReset true }
  | .dropClose =>
      { x with
        live := x.live.emit ⟨[], [x.live.inner.id]⟩
        handle := .gone }

/-- What can happen. -/
inductive Turn where
  | read (remaining : Nat)
  | write (buf : Bytes)
  /-- `poll_shutdown`. -/
  | fin
  | drop
  /-- The call on the handle goes on. -/
  | handle (spurious : Bool)
  /-- Another call begins. -/
  | call (n : Notify)
  | other (k : Nat) (spurious : Bool)
  /-- The writer drops the receiver of the outbound queue. -/
  | writerGone
  deriving DecidableEq, Repr

/-- A call on the handle begins when the one before has returned. -/
def begin (x : Speaker) (pc : HandlePc) : Speaker :=
  if x.handle.free then { x with handle := pc } else x

def step (x : Speaker) : Turn → Speaker
  | .read remaining => x.begin (.read (.start remaining))
  | .write buf => x.begin (.resetCheck buf)
  | .fin => x.begin (.finReset false)
  | .drop => x.begin .dropOpen
  | .handle spurious => x.handleNext spurious
  | .call n => { x with others := x.others ++ [.start n] }
  | .other k spurious =>
      match x.others[k]? with
      | none => x
      | some n =>
          { x with
            live := (n.next spurious x.live).1
            others := x.others.set k (n.next spurious x.live).2 }
  | .writerGone => { x with outOpen := false }

/-- The state after a run of a new stream. -/
def after (id : StreamId) (origin : Origin) (config : Config)
    (turns : List Turn) : Speaker :=
  run step (new (StreamInner.new id origin config)) turns

end Speaker

/-! ## Steps that say nothing -/

/-- Nothing is said, and what is closed or reset stays so. -/
structure Live.Mute (l l' : Live) : Prop where
  id : l'.inner.id = l.inner.id
  frames : l'.emitted.frames = l.emitted.frames
  sent : l'.inner.finSent = l.inner.finSent
  reset : l.inner.state.reset = true → l'.inner.state.reset = true
  shut : l.inner.state.writeOpen = false → l'.inner.state.writeOpen = false

namespace Live

theorem Mute.refl (l : Live) : Mute l l :=
  ⟨rfl, rfl, rfl, fun h => h, fun h => h⟩

theorem mute_exec {p : Prim} (hp : p ≠ .sendRst) (spurious : Bool) (l : Live) :
    Mute l (p.exec spurious l).1 := by
  have hreset := p.exec_keeps spurious l (s := .reset)
  have hshut := p.exec_keeps spurious l (s := .writeShut)
  simp only [up, Bool.not_eq_true'] at hreset hshut
  refine ⟨?_, ?_, ?_, hreset, hshut⟩ <;> cases p <;>
    simp only [Prim.exec, setCredit, setState, wake, emit, Emit.append,
      List.append_nil] <;>
    first
    | exact absurd rfl hp
    | (split <;> rfl)

theorem exec_id (p : Prim) (spurious : Bool) (l : Live) :
    (p.exec spurious l).1.inner.id = l.inner.id := by
  by_cases hp : p = .sendRst
  · subst hp
    simp only [Prim.exec]
    split <;> rfl
  · exact (mute_exec hp spurious l).id

theorem mute_acquire (spurious : Bool) (l : Live) (pc : AcquirePc) :
    Mute l (l.acquireNext spurious pc).1 := by
  cases pc with
  | exchange desired cur again =>
      simp only [acquireNext]
      split
      · exact ⟨rfl, rfl, rfl, fun h => h, fun h => h⟩
      · exact .refl l
  | register desired => exact ⟨rfl, rfl, rfl, fun h => h, fun h => h⟩
  | _ => exact .refl l

theorem mute_read (l : Live) {pc : ReadPc} (hpc : ∀ bytes, pc ≠ .consume bytes) :
    Mute l (l.readNext pc).1 := by
  cases pc with
  | consume bytes => exact absurd rfl (hpc bytes)
  | drain remaining pass => exact ⟨rfl, rfl, rfl, fun h => h, fun h => h⟩
  | register remaining pass => exact ⟨rfl, rfl, rfl, fun h => h, fun h => h⟩
  | _ => exact .refl l

theorem mute_closeWrite (l : Live) :
    Mute l (l.setState l.inner.state.closeWrite.2) :=
  ⟨rfl, rfl, rfl, fun h => h, fun _ => rfl⟩

theorem mute_close (l : Live) : Mute l (l.emit ⟨[], [l.inner.id]⟩) :=
  ⟨rfl, List.append_nil _, rfl, fun h => h, fun h => h⟩

end Live

namespace Speaker

def voice (x : Speaker) : Voice where
  frames := x.live.emitted.frames
  finSent := x.live.inner.finSent
  reset := x.live.inner.state.reset
  writeOpen := x.live.inner.state.writeOpen
  writing := x.handle.writing
  pending := x.handle.pending

/-- What the steps rely on: who is about to send the `RST` has reset the
stream, who is about to send the `FIN` has closed its write half, and a refund
only touches the credit. -/
structure Pledged (id : StreamId) (x : Speaker) : Prop where
  id : x.live.inner.id = id
  rst : ∀ n ∈ x.others, .sendRst ∈ n.todo → x.live.inner.state.reset = true
  fin : ∀ drop, x.handle = .finSend drop →
    x.live.inner.state.writeOpen = false
  refund : ∀ todo, x.handle = .refund todo →
    ∀ p ∈ todo, p ≠ .sendRst ∧ p ≠ .swapReset

variable {id : StreamId} {x x' : Speaker}

/-- A step that says nothing. -/
theorem hush (hlive : x.live.Mute x'.live)
    (hwriting : x'.handle.writing = true → x.handle.writing = true ∨
      x.live.inner.state.writeOpen = true)
    (hpending : x'.handle.pending = true → x.handle.pending = true ∨
      x.live.inner.state.reset = false) :
    Voice.Step id x.voice x'.voice :=
  .hush hlive.frames hlive.sent hlive.reset hlive.shut hwriting hpending

/-- A call on the handle moves on without a word and may not speak later. -/
theorem hush_quiet (hlive : x.live.Mute x'.live)
    (hwriting : x'.handle.writing = false)
    (hpending : x'.handle.pending = false) : Voice.Step id x.voice x'.voice :=
  hush hlive (fun h => by simp [hwriting] at h)
    (fun h => by simp [hpending] at h)

theorem voice_consume (live : Live) (outOpen : Bool) (others : List Notifier)
    (bytes : Bytes) :
    Voice.Step live.inner.id
      (voice ⟨live, outOpen, .read (.consume bytes), others⟩)
      (voice ⟨(live.readNext (.consume bytes)).1, outOpen,
        .read (live.readNext (.consume bytes)).2, others⟩) := by
  rcases hconsume : live.inner.recvWindow.onConsume
    (UInt32.ofNat bytes.length) with ⟨_ | delta, window⟩
  · refine hush_quiet ⟨?_, ?_, ?_, ?_, ?_⟩ rfl rfl <;>
      simp [Live.readNext, hconsume, Live.emit, Emit.append,
        StreamInner.creditFrames]
  · simp only [Live.readNext, hconsume]
    exact .credit delta rfl

/-- **What a step of the call on the handle can say.** -/
theorem voice_handle (h : x.Pledged id) (spurious : Bool) :
    Voice.Step id x.voice (x.handleNext spurious).voice := by
  obtain ⟨live, outOpen, handle, others⟩ := x
  obtain rfl : live.inner.id = id := h.id
  cases handle with
  | idle => exact hush_quiet (.refl _) rfl rfl
  | wrote result => exact hush_quiet (.refl _) rfl rfl
  | gone => exact hush_quiet (.refl _) rfl rfl
  | read pc =>
      cases pc with
      | consume bytes => exact voice_consume live outOpen others bytes
      | resetCheck remaining pass =>
          refine hush (live.mute_read (by simp)) (fun hnot => by cases hnot)
            fun hpending => .inr ?_
          by_contra hnot
          have hreset : live.inner.state.reset = true := by simpa using hnot
          simp [handleNext, Live.readNext, HandlePc.pending, hreset] at hpending
      | drain remaining pass =>
          exact hush (live.mute_read (by simp)) (fun hnot => by cases hnot)
            fun _ => .inl rfl
      | openCheck remaining pass =>
          refine hush_quiet (live.mute_read (by simp)) rfl ?_
          simp only [handleNext, Live.readNext]
          split <;> rfl
      | emptyRecheck remaining pass =>
          refine hush_quiet (live.mute_read (by simp)) rfl ?_
          simp only [handleNext, Live.readNext]
          split <;> rfl
      | openRecheck remaining pass =>
          refine hush_quiet (live.mute_read (by simp)) rfl ?_
          simp only [handleNext, Live.readNext]
          split <;> rfl
      | resetRecheck remaining pass =>
          refine hush_quiet (live.mute_read (by simp)) rfl ?_
          simp only [handleNext, Live.readNext]
          split <;> rfl
      | _ => exact hush_quiet (live.mute_read (by simp)) rfl rfl
  | resetCheck buf =>
      simp only [handleNext]
      cases hreset : live.inner.state.reset with
      | true => exact hush_quiet (.refl _) rfl rfl
      | false =>
          exact hush (.refl _) (fun hnot => by cases hnot)
            fun _ => .inr hreset
  | openCheck buf =>
      simp only [handleNext]
      cases hopen : live.inner.state.writeOpen with
      | false => exact hush_quiet (.refl _) rfl rfl
      | true => exact hush (.refl _) (fun _ => .inr hopen) fun _ => .inl rfl
  | acquire buf pc =>
      cases pc with
      | done outcome =>
          cases outcome with
          | acquired n => exact hush (.refl _) (fun _ => .inl rfl) fun _ => .inl rfl
          | _ => exact hush_quiet (.refl _) rfl rfl
      | _ =>
          exact hush (live.mute_acquire ..) (fun _ => .inl rfl)
            fun _ => .inl rfl
  | send buf n =>
      simp only [handleNext]
      cases outOpen with
      | true => exact .data _ rfl rfl
      | false => exact hush_quiet (.refl _) rfl rfl
  | refund todo =>
      cases todo with
      | nil => exact hush_quiet live.mute_closeWrite rfl rfl
      | cons p rest =>
          have hp := (h.refund _ rfl p (List.mem_cons_self ..)).1
          exact hush_quiet (Live.mute_exec hp ..) rfl rfl
  | finReset drop =>
      simp only [handleNext]
      cases live.inner.state.reset <;> cases drop <;>
        exact hush_quiet (.refl _) rfl rfl
  | finWrite drop =>
      simp only [handleNext]
      cases live.inner.state.closeWrite.1 <;> cases drop <;>
        exact hush_quiet live.mute_closeWrite rfl rfl
  | finSend drop =>
      simp only [handleNext]
      cases hsent : live.inner.finSent with
      | true => cases drop <;> exact hush_quiet (.refl _) rfl rfl
      | false =>
          have hshut := h.fin drop rfl
          cases drop <;> exact .fin hsent hshut rfl
  | dropOpen =>
      simp only [handleNext]
      cases live.inner.state.writeOpen <;> exact hush_quiet (.refl _) rfl rfl
  | dropReset =>
      simp only [handleNext]
      cases live.inner.state.reset <;> exact hush_quiet (.refl _) rfl rfl
  | dropClose => exact hush_quiet live.mute_close rfl rfl

/-- **What a step of another call can say.** -/
theorem voice_exec (h : x.Pledged id) {p : Prim}
    (hp : p = .sendRst → x.live.inner.state.reset = true) (spurious : Bool)
    (others : List Notifier) :
    Voice.Step id x.voice
      { x with
        live := (p.exec spurious x.live).1
        others := others }.voice := by
  by_cases hrst : p = .sendRst
  · subst hrst
    obtain rfl := h.id
    simp only [Prim.exec]
    cases hsent : x.live.inner.finSent with
    | true =>
        exact hush (.refl _) (fun hwriting => .inl hwriting)
          fun hpending => .inl hpending
    | false => exact .rst hsent (hp rfl)
  · exact hush (Live.mute_exec hrst ..) (fun hwriting => .inl hwriting)
      fun hpending => .inl hpending

/-- What comes in the place of an instruction sends a `RST` only once the
stream is reset. -/
theorem rst_exec {p : Prim} {spurious : Bool} {l : Live}
    (h : .sendRst ∈ (p.exec spurious l).2.1) :
    (p.exec spurious l).1.inner.state.reset = true := by
  cases p with
  | swapReset =>
      simp only [Prim.exec] at h ⊢
      split
      · rename_i hreset
        exact hreset
      · rfl
  | addCredit delta cur =>
      simp only [Prim.exec] at h
      split at h <;> simp at h
  | sendRst =>
      simp only [Prim.exec] at h
      split at h <;> simp at h
  | _ => simp [Prim.exec] at h

theorem Pledged.exec (h : x.Pledged id) {k : Nat} {n : Notifier}
    (hn : x.others[k]? = some n) {p : Prim} {rest : List Prim}
    (htodo : n.todo = p :: rest) (spurious : Bool) :
    Pledged id
      { x with
        live := (p.exec spurious x.live).1
        others := x.others.set k (n.next spurious x.live).2 } := by
  have hkeeps := p.exec_keeps spurious x.live (s := .reset)
  have hshut := p.exec_keeps spurious x.live (s := .writeShut)
  simp only [Live.up, Bool.not_eq_true'] at hkeeps hshut
  refine ⟨?_, ?_, fun drop hdrop => hshut (h.fin drop hdrop), h.refund⟩
  · exact (Live.exec_id p spurious x.live).trans h.id
  · intro m hm hrst
    rcases List.mem_or_eq_of_mem_set hm with hm | rfl
    · exact hkeeps (h.rst m hm hrst)
    · rw [Notifier.next_cons htodo] at hrst
      rcases List.mem_append.mp hrst with hrst | hrst
      · exact rst_exec hrst
      · refine hkeeps (h.rst n (List.mem_of_getElem? hn) ?_)
        rw [htodo]
        exact List.mem_cons_of_mem _ hrst

theorem handleNext_others (x : Speaker) (spurious : Bool) :
    (x.handleNext spurious).others = x.others := by
  unfold handleNext
  split <;> first | rfl | (split <;> rfl)

theorem handleNext_id (x : Speaker) (spurious : Bool) :
    (x.handleNext spurious).live.inner.id = x.live.inner.id := by
  unfold handleNext
  split <;> first
    | rfl
    | (split <;> rfl)
    | exact (x.live.mute_acquire spurious _).id
    | exact Live.exec_id ..
    | skip
  rename_i pc _
  cases pc <;> rfl

/-- An instruction of a refund is replaced by others of that kind. -/
theorem refund_exec {p : Prim} (hp : p ≠ .swapReset) (spurious : Bool)
    (l : Live) :
    ∀ q ∈ (p.exec spurious l).2.1, q ≠ .sendRst ∧ q ≠ .swapReset := by
  cases p with
  | swapReset => exact absurd rfl hp
  | addCredit delta cur =>
      simp only [Prim.exec]
      split <;> simp
  | sendRst =>
      simp only [Prim.exec]
      split <;> simp
  | _ => simp [Prim.exec]

/-- Where a handle comes from that is about to send a `FIN`. -/
theorem handleNext_finSend {spurious drop : Bool}
    (h : (x.handleNext spurious).handle = .finSend drop) :
    x.handle = .finWrite drop := by
  unfold handleNext HandlePc.afterFin at h
  dsimp only at h
  repeat' split at h
  all_goals simp_all

/-- Where a handle comes from that gives credit back. -/
theorem handleNext_refund {spurious : Bool} {todo : List Prim}
    (h : (x.handleNext spurious).handle = .refund todo) :
    (x.outOpen = false ∧ ∃ buf n, x.handle = .send buf n ∧
      todo = (Notify.grant n).program) ∨
      ∃ p rest, x.handle = .refund (p :: rest) ∧
        todo = (p.exec spurious x.live).2.1 ++ rest := by
  unfold handleNext HandlePc.afterFin at h
  dsimp only at h
  repeat' split at h
  all_goals simp_all

theorem Pledged.handle (h : x.Pledged id) (spurious : Bool) :
    (x.handleNext spurious).Pledged id := by
  have hreset := (voice_handle h spurious).reset
  constructor
  · rw [handleNext_id]
    exact h.id
  · rw [handleNext_others]
    exact fun n hn hrst => hreset (h.rst n hn hrst)
  · intro drop hdrop
    have hwrite := handleNext_finSend hdrop
    simp only [handleNext, hwrite]
    rfl
  · intro todo htodo
    obtain ⟨-, buf, n, -, rfl⟩ | ⟨p, rest, hrefund, rfl⟩ :=
      handleNext_refund htodo
    · simp only [Notify.program]
      split <;> simp
    · have hkind := h.refund _ hrefund
      have hp := (hkind p (List.mem_cons_self ..)).2
      intro q hq
      rcases List.mem_append.mp hq with hq | hq
      · exact refund_exec hp spurious x.live q hq
      · exact hkind q (List.mem_cons_of_mem _ hq)

/-- Beginning a call says nothing. -/
theorem begin_speaks (h : x.Pledged id) {pc : HandlePc}
    (hwriting : pc.writing = false) (hpending : pc.pending = false)
    (hfin : ∀ drop, pc ≠ .finSend drop) (hrefund : ∀ todo, pc ≠ .refund todo) :
    Voice.Step id x.voice (x.begin pc).voice ∧ (x.begin pc).Pledged id := by
  unfold begin
  split
  · exact ⟨hush_quiet (.refl _) hwriting hpending,
      h.id, h.rst, fun drop hdrop => absurd hdrop (hfin drop),
      fun todo htodo => absurd htodo (hrefund todo)⟩
  · exact ⟨hush (.refl _) .inl .inl, h⟩

theorem sendRst_not_mem_program (n : Notify) : .sendRst ∉ n.program := by
  cases n <;> simp only [Notify.program] <;> first | decide | (split <;> simp)

/-- **Every turn is a step of the voice.** -/
theorem step_speaks (h : x.Pledged id) (t : Turn) :
    Voice.Step id x.voice (x.step t).voice ∧ (x.step t).Pledged id := by
  have hsame : Voice.Step id x.voice x.voice ∧ x.Pledged id :=
    ⟨hush (.refl _) .inl .inl, h⟩
  cases t with
  | read remaining =>
      refine begin_speaks h rfl ?_ (fun _ => by simp) (fun _ => by simp)
      unfold ReadPc.start
      split <;> rfl
  | write buf =>
      exact begin_speaks h rfl rfl (fun _ => by simp) (fun _ => by simp)
  | fin => exact begin_speaks h rfl rfl (fun _ => by simp) (fun _ => by simp)
  | drop => exact begin_speaks h rfl rfl (fun _ => by simp) (fun _ => by simp)
  | handle spurious => exact ⟨voice_handle h spurious, h.handle spurious⟩
  | call n =>
      refine ⟨hush (.refl _) .inl .inl, h.id, fun m hm hrst => ?_, h.fin,
        h.refund⟩
      rcases List.mem_append.mp hm with hm | hm
      · exact h.rst m hm hrst
      · rw [List.mem_singleton.mp hm] at hrst
        exact absurd hrst (sendRst_not_mem_program n)
  | other k spurious =>
      simp only [step]
      cases hn : x.others[k]? with
      | none => exact hsame
      | some n =>
          dsimp only
          cases htodo : n.todo with
          | nil =>
              rw [Notifier.next_nil htodo]
              refine ⟨hush (.refl _) .inl .inl, h.id, fun m hm => ?_, h.fin,
                h.refund⟩
              rcases List.mem_or_eq_of_mem_set hm with hm | rfl
              · exact h.rst m hm
              · exact h.rst m (List.mem_of_getElem? hn)
          | cons p rest =>
              have hp : p = .sendRst → x.live.inner.state.reset = true := by
                rintro rfl
                refine h.rst n (List.mem_of_getElem? hn) ?_
                rw [htodo]
                exact List.mem_cons_self ..
              have hlive : (n.next spurious x.live).1 =
                  (p.exec spurious x.live).1 := by
                rw [Notifier.next_cons htodo]
              rw [hlive]
              exact ⟨voice_exec h hp spurious _, h.exec hn htodo spurious⟩
  | writerGone => exact ⟨hush (.refl _) .inl .inl, h.id, h.rst, h.fin, h.refund⟩

theorem decent_after (id : StreamId) (origin : Origin) (config : Config)
    (turns : List Turn) :
    (after id origin config turns).voice.Decent id ∧
      (after id origin config turns).Pledged id := by
  refine run_invariant_all step
    (I := fun x => x.voice.Decent id ∧ x.Pledged id) ?_ turns _ ⟨?_, ?_⟩
  · rintro x t ⟨hdecent, hpledged⟩
    obtain ⟨hvoice, hpledged'⟩ := step_speaks hpledged t
    exact ⟨hvoice.decent hdecent, hpledged'⟩
  · exact ⟨fun _ _ hf => absurd hf List.not_mem_nil, fun hnot => by cases hnot⟩
  · exact ⟨rfl, fun _ hn => absurd hn List.not_mem_nil,
      fun _ hnot => (by cases hnot), fun _ hnot => (by cases hnot)⟩

/-- **The last word.**  However the calls on a stream interleave: it says
goodbye at most once.  Nothing follows a `FIN` but window updates, and nothing
follows a `RST` but at most one frame, of a poll that had looked at `reset`
before. -/
theorem last_word (id : StreamId) (origin : Origin) (config : Config)
    (turns : List Turn) :
    let said := (after id origin config turns).live.emitted.frames
    (∀ f ∈ said, f.isGoodbye = false) ∨
      ∃ spoken later, (∀ f ∈ spoken, f.isGoodbye = false) ∧
        ((said = spoken ++ .fin id :: later ∧
            ∀ f ∈ later, f.isCredit = true) ∨
          (said = spoken ++ .rst id :: later ∧ later.length ≤ 1 ∧
            ∀ f ∈ later, f.isGoodbye = false)) := by
  have h := (decent_after id origin config turns).1
  intro said
  cases hsent : (after id origin config turns).voice.finSent with
  | false => exact .inl (h.before hsent)
  | true =>
      obtain ⟨spoken, hspoken, hend⟩ := h.ended hsent
      cases hend with
      | fin later hframes _ _ hlater =>
          exact .inr ⟨spoken, later, hspoken, .inl ⟨hframes, hlater⟩⟩
      | rst later hframes _ hlater hlate =>
          exact .inr ⟨spoken, later, hspoken,
            .inr ⟨hframes, le_trans (Nat.le_add_right _ _) hlate, hlater⟩⟩

/-- The bound is met: a `poll_write` is about to send when the session's
reader resets the stream. -/
def lateData : List Turn :=
  [.write [1]] ++ List.replicate 6 (.handle false) ++ [.call .localReset] ++
    List.replicate 4 (.other 0 false) ++ [.handle false]

example : (after 1 .remotely Config.default lateData).live.emitted.frames =
    [.rst 1, .data 1 Flags.empty [1]] := by
  decide +kernel

/-! ## No goodbye is lost -/

/-- Some call has yet to execute an instruction. -/
def Awaits (x : Speaker) (p : Prim) : Prop := ∃ n ∈ x.others, p ∈ n.todo

/-- A turn of a stream whose end is its own affair: neither the peer nor the
session closes it, and the writer lives. -/
def Turn.own : Turn → Bool
  | .call .remoteReset => false
  | .call .forceClose => false
  | .writerGone => false
  | _ => true

/-- Who has closed the write half or reset the stream has sent the goodbye or
is about to. -/
structure Owing (x : Speaker) : Prop where
  own : ¬ x.Awaits .setReset
  clears : x.Awaits .clearWrite → x.live.inner.state.reset = true
  told : x.live.inner.state.reset = true →
    x.live.inner.finSent = true ∨ x.Awaits .sendRst
  shut : x.live.inner.state.writeOpen = false →
    x.live.inner.finSent = true ∨ x.Awaits .sendRst ∨
      ∃ drop, x.handle = .finSend drop
  closes : x.live.inner.state.reset = true →
    x.live.inner.state.writeOpen = false ∨ x.Awaits .clearWrite
  out : x.outOpen = true
  refund : ∀ todo, x.handle ≠ .refund todo

/-- Call `k` has executed its next instruction `p`. -/
def executed (x : Speaker) (k : Nat) (n : Notifier) (spurious : Bool)
    (p : Prim) : Speaker :=
  { x with
    live := (p.exec spurious x.live).1
    others := x.others.set k (n.next spurious x.live).2 }

section Executed

variable {k : Nat} {n : Notifier} {p q : Prim} {rest : List Prim}
  (hn : x.others[k]? = some n) (htodo : n.todo = p :: rest) (spurious : Bool)

include hn htodo

/-- What is yet to be executed afterwards was so before, or has come in the
place of the instruction. -/
theorem awaits_of_executed (h : (x.executed k n spurious p).Awaits q) :
    q ∈ (p.exec spurious x.live).2.1 ∨ x.Awaits q := by
  obtain ⟨m, hm, hq⟩ := h
  rcases List.mem_or_eq_of_mem_set hm with hm | rfl
  · exact .inr ⟨m, hm, hq⟩
  · rw [Notifier.next_cons htodo] at hq
    rcases List.mem_append.mp hq with hq | hq
    · exact .inl hq
    · refine .inr ⟨n, List.mem_of_getElem? hn, ?_⟩
      rw [htodo]
      exact List.mem_cons_of_mem _ hq

theorem executed_awaits (hq : q ∈ (p.exec spurious x.live).2.1) :
    (x.executed k n spurious p).Awaits q := by
  refine ⟨_, Interleave.mem_set_self _ hn, ?_⟩
  rw [Notifier.next_cons htodo]
  exact List.mem_append_left _ hq

/-- The other instructions stay. -/
theorem Awaits.executed (h : x.Awaits q) (hq : q ≠ p) :
    (x.executed k n spurious p).Awaits q := by
  obtain ⟨m, hm, hmem⟩ := h
  by_cases hsame : m = n
  · subst hsame
    refine ⟨_, Interleave.mem_set_self _ hn, ?_⟩
    rw [Notifier.next_cons htodo]
    rw [htodo] at hmem
    exact List.mem_append_right _ ((List.mem_cons.mp hmem).resolve_left hq)
  · exact ⟨m, Interleave.mem_set_of_ne _ hn hm hsame, hmem⟩

theorem not_awaits_executed (h : ¬ x.Awaits q)
    (hnew : q ∉ (p.exec spurious x.live).2.1) :
    ¬ (x.executed k n spurious p).Awaits q := fun hwait =>
  (awaits_of_executed hn htodo spurious hwait).elim hnew h

/-- An instruction that has nothing to do with it. -/
theorem Owing.executed_calm (h : x.Owing)
    (hstate : (p.exec spurious x.live).1.inner.state.reset =
      x.live.inner.state.reset)
    (hopen : (p.exec spurious x.live).1.inner.state.writeOpen =
      x.live.inner.state.writeOpen)
    (hsent : (p.exec spurious x.live).1.inner.finSent = x.live.inner.finSent)
    (hnew : .setReset ∉ (p.exec spurious x.live).2.1 ∧
      .clearWrite ∉ (p.exec spurious x.live).2.1)
    (hrst : p ≠ .sendRst) (hclear : p ≠ .clearWrite) :
    (x.executed k n spurious p).Owing where
  own := not_awaits_executed hn htodo spurious h.own hnew.1
  clears hwait := hstate.trans (h.clears
    ((awaits_of_executed hn htodo spurious hwait).resolve_left hnew.2))
  told hreset := (h.told (hstate.symm.trans hreset)).imp hsent.trans
    fun hwait => hwait.executed hn htodo spurious (Ne.symm hrst)
  shut hshut := (h.shut (hopen.symm.trans hshut)).imp hsent.trans
    (Or.imp_left fun hwait => hwait.executed hn htodo spurious (Ne.symm hrst))
  closes hreset := (h.closes (hstate.symm.trans hreset)).imp hopen.trans
    fun hwait => hwait.executed hn htodo spurious (Ne.symm hclear)
  out := h.out
  refund := h.refund

end Executed

section Executed

variable {k : Nat} {n : Notifier} {rest : List Prim}
  (hn : x.others[k]? = some n) (spurious : Bool)

include hn

/-- Whoever clears the write half in a call has reset the stream. -/
theorem Owing.executed_clearWrite (h : x.Owing)
    (htodo : n.todo = .clearWrite :: rest) :
    (x.executed k n spurious .clearWrite).Owing := by
  have hreset : x.live.inner.state.reset = true :=
    h.clears ⟨n, List.mem_of_getElem? hn, by simp [htodo]⟩
  have htold := (h.told hreset).imp_right fun hwait =>
    hwait.executed hn htodo spurious (by simp)
  exact ⟨not_awaits_executed hn htodo spurious h.own (by simp [Prim.exec]),
    fun _ => hreset, fun _ => htold, fun _ => htold.imp_right .inl,
    fun _ => .inl rfl, h.out, h.refund⟩

/-- The first to reset the stream has the `RST` to send. -/
theorem Owing.executed_swapReset (h : x.Owing)
    (htodo : n.todo = .swapReset :: rest) :
    (x.executed k n spurious .swapReset).Owing := by
  cases hreset : x.live.inner.state.reset with
  | true =>
      have hexec : Prim.exec spurious x.live .swapReset =
          (x.live, [.clearRead, .clearWrite], none) := by
        simp [Prim.exec, hreset]
      have hlive : (x.executed k n spurious .swapReset).live = x.live :=
        congrArg Prod.fst hexec
      constructor
      · exact not_awaits_executed hn htodo spurious h.own (by simp [hexec])
      · exact fun _ => hlive ▸ hreset
      · rw [hlive]
        exact fun hagain => (h.told hagain).imp_right fun hwait =>
          hwait.executed hn htodo spurious (by simp)
      · rw [hlive]
        exact fun hshut => (h.shut hshut).imp_right (Or.imp_left
          fun hwait => hwait.executed hn htodo spurious (by simp))
      · exact fun _ => .inr
          (executed_awaits hn htodo spurious (by simp [hexec]))
      · exact h.out
      · exact h.refund
  | false =>
      have hexec : Prim.exec spurious x.live .swapReset =
          (x.live.setState { x.live.inner.state with reset := true },
            Prim.resetRest, some .reset) := by
        simp [Prim.exec, hreset]
      have hnew : ∀ q ∈ Prim.resetRest,
          (x.executed k n spurious .swapReset).Awaits q := fun q hq =>
        executed_awaits hn htodo spurious (by rw [hexec]; exact hq)
      have hrst := hnew .sendRst (by decide)
      constructor
      · refine not_awaits_executed hn htodo spurious h.own ?_
        rw [hexec]
        exact (by decide : .setReset ∉ Prim.resetRest)
      · exact fun _ => congrArg (fun r => r.1.inner.state.reset) hexec
      · exact fun _ => .inr hrst
      · exact fun _ => .inr (.inl hrst)
      · exact fun _ => .inr (hnew .clearWrite (by decide))
      · exact h.out
      · exact h.refund

/-- Either the `RST` is sent or a goodbye was before. -/
theorem Owing.executed_sendRst (h : x.Owing)
    (htodo : n.todo = .sendRst :: rest) :
    (x.executed k n spurious .sendRst).Owing := by
  obtain ⟨hsent, hstate, hnone⟩ :
      (Prim.exec spurious x.live .sendRst).1.inner.finSent = true ∧
        (Prim.exec spurious x.live .sendRst).1.inner.state =
          x.live.inner.state ∧
        (Prim.exec spurious x.live .sendRst).2.1 = [] := by
    simp only [Prim.exec]
    split
    · rename_i hsent
      exact ⟨hsent, rfl, rfl⟩
    · exact ⟨rfl, rfl, rfl⟩
  have hstate' : (x.executed k n spurious .sendRst).live.inner.state =
      x.live.inner.state := hstate
  constructor
  · exact not_awaits_executed hn htodo spurious h.own (by simp [hnone])
  · rw [hstate']
    exact fun hwait => h.clears ((awaits_of_executed hn htodo spurious
      hwait).resolve_left (by simp [hnone]))
  · exact fun _ => .inl hsent
  · exact fun _ => .inl hsent
  · rw [hstate']
    exact fun hreset => (h.closes hreset).imp_right fun hwait =>
      hwait.executed hn htodo spurious (by simp)
  · exact h.out
  · exact h.refund

theorem Owing.executed (h : x.Owing) {p : Prim} (htodo : n.todo = p :: rest) :
    (x.executed k n spurious p).Owing := by
  cases p with
  | setReset =>
      exact absurd ⟨n, List.mem_of_getElem? hn, by simp [htodo]⟩ h.own
  | clearWrite => exact h.executed_clearWrite hn spurious htodo
  | swapReset => exact h.executed_swapReset hn spurious htodo
  | sendRst => exact h.executed_sendRst hn spurious htodo
  | addCredit delta cur =>
      refine h.executed_calm hn htodo spurious ?_ ?_ ?_ ?_ (by simp) (by simp)
        <;> simp only [Prim.exec] <;> split <;> first | rfl | simp
  | _ =>
      exact h.executed_calm hn htodo spurious rfl rfl rfl (by simp [Prim.exec])
        (by simp) (by simp)

end Executed

theorem acquireNext_state (spurious : Bool) (l : Live) (pc : AcquirePc) :
    (l.acquireNext spurious pc).1.inner.state = l.inner.state := by
  cases pc with
  | exchange desired cur again =>
      simp only [Live.acquireNext]
      split <;> rfl
  | _ => rfl

theorem readNext_state (l : Live) (pc : ReadPc) :
    (l.readNext pc).1.inner.state = l.inner.state ∧
      (l.readNext pc).1.inner.finSent = l.inner.finSent := by
  cases pc <;> exact ⟨rfl, rfl⟩

/-- **What a step of the call on the handle does to the flags**: it closes the
write half and is then about to send the `FIN`, it sends it, or it leaves them
alone. -/
theorem handleNext_cases (hrefund : ∀ todo, x.handle ≠ .refund todo)
    (spurious : Bool) :
    ((∀ drop, x.handle ≠ .finSend drop) ∧
      (x.handleNext spurious).live.inner.state = x.live.inner.state ∧
      (x.handleNext spurious).live.inner.finSent = x.live.inner.finSent) ∨
    ((x.handleNext spurious).live.inner.state =
        x.live.inner.state.closeWrite.2 ∧
      (x.handleNext spurious).live.inner.finSent = x.live.inner.finSent ∧
      ((x.live.inner.state.writeOpen = false ∧
          ∀ drop, x.handle ≠ .finSend drop) ∨
        ∃ drop, (x.handleNext spurious).handle = .finSend drop)) ∨
    ((x.handleNext spurious).live.inner.state = x.live.inner.state ∧
      (x.handleNext spurious).live.inner.finSent = true) := by
  obtain ⟨live, outOpen, handle, others⟩ := x
  cases handle with
  | read pc =>
      exact .inl ⟨fun _ => by simp, readNext_state live pc⟩
  | acquire buf pc =>
      refine .inl ⟨fun _ => by simp, ?_⟩
      cases pc with
      | done outcome => cases outcome <;> exact ⟨rfl, rfl⟩
      | _ => exact ⟨acquireNext_state .., (live.mute_acquire ..).sent⟩
  | send buf n =>
      refine .inl ⟨fun _ => by simp, ?_⟩
      cases outOpen <;> exact ⟨rfl, rfl⟩
  | refund todo => exact absurd rfl (hrefund todo)
  | finWrite drop =>
      refine .inr (.inl ⟨rfl, rfl, ?_⟩)
      cases hopen : live.inner.state.writeOpen with
      | false => exact .inl ⟨rfl, fun _ => by simp⟩
      | true =>
          refine .inr ⟨drop, ?_⟩
          simp [handleNext, StreamState.closeWrite, hopen]
  | finSend drop =>
      refine .inr (.inr ?_)
      cases hsent : live.inner.finSent with
      | true => simp [handleNext, hsent]
      | false => simp [handleNext, hsent, Live.emit]
  | _ => exact .inl ⟨fun _ => by simp, rfl, rfl⟩

theorem handleNext_outOpen (x : Speaker) (spurious : Bool) :
    (x.handleNext spurious).outOpen = x.outOpen := by
  unfold handleNext
  split <;> first | rfl | (split <;> rfl)

/-- Who closes the write half goes on to send the `FIN`. -/
theorem Owing.handle (h : x.Owing) (spurious : Bool) :
    (x.handleNext spurious).Owing := by
  have hothers : ∀ p, (x.handleNext spurious).Awaits p ↔ x.Awaits p := by
    intro p
    rw [Awaits, handleNext_others]
    rfl
  have hout : (x.handleNext spurious).outOpen = true :=
    (x.handleNext_outOpen spurious).trans h.out
  have hrefund : ∀ todo, (x.handleNext spurious).handle ≠ .refund todo := by
    intro todo htodo
    obtain ⟨hclosed, -⟩ | ⟨p, rest, hrefund, -⟩ := handleNext_refund htodo
    · simp [h.out] at hclosed
    · exact h.refund _ hrefund
  have hpending : x.live.inner.state.writeOpen = false →
      (∀ drop, x.handle ≠ .finSend drop) →
      x.live.inner.finSent = true ∨ x.Awaits .sendRst := by
    intro hshut hnot
    rcases h.shut hshut with hsent | hwait | ⟨drop, hdrop⟩
    · exact .inl hsent
    · exact .inr hwait
    · exact absurd hdrop (hnot drop)
  obtain ⟨hnot, hstate, hsent⟩ | ⟨hstate, hsent, hnext⟩ | ⟨hstate, hsent⟩ :=
    handleNext_cases h.refund spurious
  · refine ⟨?_, ?_, ?_, fun hshut => ?_, ?_, hout, hrefund⟩
    · exact mt (hothers _).mp h.own
    · rw [hothers, hstate]
      exact h.clears
    · rw [hothers, hstate, hsent]
      exact h.told
    · rw [hstate] at hshut
      rw [hothers, hsent]
      exact (hpending hshut hnot).imp_right .inl
    · rw [hothers, hstate]
      exact h.closes
  · refine ⟨?_, ?_, ?_, fun _ => ?_, fun _ => ?_, hout, hrefund⟩
    · exact mt (hothers _).mp h.own
    · rw [hothers, hstate]
      exact h.clears
    · rw [hothers, hstate, hsent]
      exact h.told
    · rw [hothers, hsent]
      rcases hnext with ⟨hshut, hnot⟩ | hdrop
      · exact (hpending hshut hnot).imp_right .inl
      · exact .inr (.inr hdrop)
    · rw [hstate]
      exact .inl rfl
  · refine ⟨?_, ?_, fun _ => .inl hsent, fun _ => .inl hsent, ?_, hout,
      hrefund⟩
    · exact mt (hothers _).mp h.own
    · rw [hothers, hstate]
      exact h.clears
    · rw [hothers, hstate]
      exact h.closes

/-- A call on the handle begins. -/
theorem Owing.begin (h : x.Owing) {pc : HandlePc}
    (hrefund : ∀ todo, pc ≠ .refund todo) : (x.begin pc).Owing := by
  unfold Speaker.begin
  split
  · rename_i hfree
    refine ⟨h.own, h.clears, h.told, fun hshut => ?_, h.closes, h.out,
      hrefund⟩
    rcases h.shut hshut with hsent | hwait | ⟨drop, hdrop⟩
    · exact .inl hsent
    · exact .inr (.inl hwait)
    · rw [hdrop] at hfree
      cases hfree
  · exact h

/-- The instructions of a call that is neither the peer's nor the session's. -/
theorem own_program {n : Notify} (hreset : n ≠ .remoteReset)
    (hforce : n ≠ .forceClose) :
    .setReset ∉ n.program ∧ .clearWrite ∉ n.program ∧
      .sendRst ∉ n.program := by
  cases n <;> simp only [Notify.program] <;>
    first
    | exact absurd rfl hreset
    | exact absurd rfl hforce
    | decide
    | (split <;> simp)

theorem Owing.call (h : x.Owing) {n : Notify} (hreset : n ≠ .remoteReset)
    (hforce : n ≠ .forceClose) :
    { x with others := x.others ++ [Notifier.start n] }.Owing := by
  obtain ⟨hset, hclear, -⟩ := own_program hreset hforce
  have hkeep : ∀ p, x.Awaits p →
      { x with others := x.others ++ [Notifier.start n] }.Awaits p := by
    rintro p ⟨m, hm, hp⟩
    exact ⟨m, List.mem_append_left _ hm, hp⟩
  have hback : ∀ p, p ∉ n.program →
      { x with others := x.others ++ [Notifier.start n] }.Awaits p → x.Awaits p := by
    rintro p hnot ⟨m, hm, hp⟩
    rcases List.mem_append.mp hm with hm | hm
    · exact ⟨m, hm, hp⟩
    · rw [List.mem_singleton.mp hm] at hp
      exact absurd hp hnot
  exact ⟨mt (hback _ hset) h.own, fun hwait => h.clears (hback _ hclear hwait),
    fun hagain => (h.told hagain).imp_right (hkeep _),
    fun hshut => (h.shut hshut).imp_right (Or.imp_left (hkeep _)),
    fun hagain => (h.closes hagain).imp_right (hkeep _), h.out, h.refund⟩

theorem Owing.step (h : x.Owing) {t : Turn} (ht : t.own = true) :
    (x.step t).Owing := by
  cases t with
  | read remaining => exact h.begin fun _ => by simp
  | write buf => exact h.begin fun _ => by simp
  | fin => exact h.begin fun _ => by simp
  | drop => exact h.begin fun _ => by simp
  | handle spurious => exact h.handle spurious
  | call n =>
      refine h.call ?_ ?_ <;>
        · rintro rfl
          cases ht
  | other k spurious =>
      simp only [Speaker.step]
      cases hn : x.others[k]? with
      | none => exact h
      | some n =>
          dsimp only
          cases htodo : n.todo with
          | nil =>
              have hsame : x.others.set k n = x.others := by
                obtain ⟨hk, hget⟩ := List.getElem?_eq_some_iff.mp hn
                rw [← hget, List.set_getElem_self]
              rw [Notifier.next_nil htodo, hsame]
              exact h
          | cons p rest =>
              have hlive : (n.next spurious x.live).1 =
                  (p.exec spurious x.live).1 := by
                rw [Notifier.next_cons htodo]
              rw [hlive]
              exact h.executed hn spurious htodo
  | writerGone => cases ht

/-- No call is under way. -/
def AtRest (x : Speaker) : Prop :=
  x.handle.returned = true ∧ ∀ n ∈ x.others, n.todo = []

instance (x : Speaker) : Decidable x.AtRest := by
  unfold AtRest
  infer_instance

/-- **No goodbye is lost.**  However the calls interleave: as long as neither
the peer nor the session puts an end to the stream, at rest its write half is
closed exactly when the peer has been sent a `FIN` or a `RST`. -/
theorem goodbye_said (id : StreamId) (origin : Origin) (config : Config)
    {turns : List Turn} (hown : ∀ t ∈ turns, t.own = true)
    (hrest : (after id origin config turns).AtRest) :
    let x := after id origin config turns
    x.live.inner.state.writeOpen = false ↔
      ∃ f ∈ x.live.emitted.frames, f.isGoodbye = true := by
  have hnone : ∀ p, ¬ (after id origin config turns).Awaits p := by
    rintro p ⟨n, hn, hp⟩
    rw [hrest.2 n hn] at hp
    cases hp
  have hnew : (new (StreamInner.new id origin config)).Owing :=
    ⟨fun ⟨n, hn, _⟩ => absurd hn List.not_mem_nil,
      fun ⟨n, hn, _⟩ => absurd hn List.not_mem_nil, fun hnot => (by cases hnot),
      fun hnot => (by cases hnot), fun hnot => (by cases hnot), rfl,
      fun _ => by simp [new]⟩
  have h : (after id origin config turns).Owing :=
    run_invariant Speaker.step (fun x t hx ht => hx.step ht.2) turns _ hnew
      ((along_true Speaker.step _ turns).and_forall Speaker.step hown)
  have hdecent := (decent_after id origin config turns).1
  intro x
  constructor
  · intro hshut
    have hsent : x.live.inner.finSent = true := by
      rcases h.shut hshut with hsent | hwait | ⟨drop, hdrop⟩
      · exact hsent
      · exact absurd hwait (hnone _)
      · have hreturned := hrest.1
        rw [hdrop] at hreturned
        cases hreturned
    obtain ⟨spoken, -, hend⟩ := hdecent.ended hsent
    cases hend with
    | fin later hframes =>
        have hmem : .fin id ∈ x.voice.frames := by rw [hframes]; simp
        exact ⟨.fin id, hmem, rfl⟩
    | rst later hframes =>
        have hmem : .rst id ∈ x.voice.frames := by rw [hframes]; simp
        exact ⟨.rst id, hmem, rfl⟩
  · rintro ⟨f, hf, hbye⟩
    have hsent : x.voice.finSent = true := by
      by_contra hnot
      have hquiet := hdecent.before (by simpa using hnot) f hf
      rw [hbye] at hquiet
      cases hquiet
    obtain ⟨spoken, -, hend⟩ := hdecent.ended hsent
    cases hend with
    | fin later _ hshut => exact hshut
    | rst later _ hreset =>
        exact (h.closes hreset).resolve_right (hnone _)

/-- `poll_shutdown` closes the write half, and the session's reader resets the
stream before the `FIN` is out. -/
def finOvertaken : List Turn :=
  [.fin, .handle false, .handle false, .call .localReset] ++
    List.replicate 9 (.other 0 false) ++ [.handle false]

theorem goodbye_said_finOvertaken :
    (after 1 .remotely Config.default finOvertaken).AtRest ∧
      ∃ f ∈ (after 1 .remotely Config.default finOvertaken).live.emitted.frames,
        f.isGoodbye = true :=
  have hrest : (after 1 .remotely Config.default finOvertaken).AtRest := by
    decide +kernel
  ⟨hrest, (goodbye_said 1 .remotely Config.default (by decide) hrest).mp
    (by decide +kernel)⟩

/-! ## Without interference -/

/-- **`local_fin` alone is the call.** -/
theorem fin_alone (live : Live) (outOpen : Bool) (others : List Notifier) :
    let x := (handleNext false)^[3] ⟨live, outOpen, .finReset false, others⟩
    x.handle = .idle ∧ x.live.inner = live.inner.localFin.1 ∧
      x.live.emitted = live.emitted.append live.inner.localFin.2 := by
  intro x
  by_cases hreset : live.inner.state.reset = true
  · simp [x, handleNext, HandlePc.afterFin, StreamInner.localFin, hreset,
      Emit.append_none]
  by_cases hopen : live.inner.state.writeOpen = true
  · by_cases hsent : live.inner.finSent = true
    · simp [x, handleNext, HandlePc.afterFin, StreamInner.localFin, hreset,
        StreamState.closeWrite, hopen, hsent, Live.setState, Emit.append_none]
    · simp [x, handleNext, HandlePc.afterFin, StreamInner.localFin, hreset,
        StreamState.closeWrite, hopen, hsent, Live.setState, Live.emit]
  · simp [x, handleNext, HandlePc.afterFin, StreamInner.localFin, hreset,
      StreamState.closeWrite, hopen, Live.setState, Emit.append_none]

/-- **Dropping the handle alone is the call.** -/
theorem drop_alone (live : Live) (outOpen : Bool) (others : List Notifier) :
    let x := (handleNext false)^[6] ⟨live, outOpen, .dropOpen, others⟩
    x.handle = .gone ∧ x.live.inner = live.inner.onUserDrop.1 ∧
      x.live.emitted = live.emitted.append live.inner.onUserDrop.2 := by
  intro x
  by_cases hopen : live.inner.state.writeOpen = true
  · by_cases hreset : live.inner.state.reset = true
    · simp [x, handleNext, StreamInner.onUserDrop, hopen, hreset, Live.emit]
    · by_cases hsent : live.inner.finSent = true
      · simp [x, handleNext, HandlePc.afterFin, StreamInner.onUserDrop,
          StreamInner.localFin, StreamState.closeWrite, hopen, hreset, hsent,
          Live.setState, Live.emit, Emit.append, Emit.none]
      · simp [x, handleNext, HandlePc.afterFin, StreamInner.onUserDrop,
          StreamInner.localFin, StreamState.closeWrite, hopen, hreset, hsent,
          Live.setState, Live.emit, Emit.append]
  · simp [x, handleNext, StreamInner.onUserDrop, hopen, Live.emit]

/-- **`poll_write` alone is the call.** -/
theorem write_alone (live : Live) (outOpen : Bool) (others : List Notifier)
    (buf : Bytes) :
    let x := (handleNext false)^[14] ⟨live, outOpen, .resetCheck buf, others⟩
    x.handle = .wrote (live.inner.pollWrite outOpen buf).1 ∧
      x.live.inner = (live.inner.pollWrite outOpen buf).2.1 ∧
      x.live.emitted =
        live.emitted.append (live.inner.pollWrite outOpen buf).2.2 := by
  intro x
  by_cases hreset : live.inner.state.reset = true
  · simp [x, handleNext, StreamInner.pollWrite, hreset, Emit.append_none]
  by_cases hopen : live.inner.state.writeOpen = true
  swap
  · simp [x, handleNext, StreamInner.pollWrite, hreset, hopen,
      Emit.append_none]
  by_cases hempty : buf = []
  · simp [x, handleNext, StreamInner.pollWrite, hreset, hopen, hempty,
      Emit.append_none]
  by_cases hclosed : live.inner.sendWindow.closed = true
  · simp [x, handleNext, StreamInner.pollWrite, hreset, hopen, hempty,
      SendWindow.pollAcquire_eq, hclosed, Live.acquireNext, Emit.append_none]
  by_cases hzero : live.inner.sendWindow.available = 0
  · simp [x, handleNext, StreamInner.pollWrite, hreset, hopen, hempty,
      SendWindow.pollAcquire_eq, hclosed, hzero, Live.acquireNext,
      Live.register, Emit.append_none]
  cases outOpen with
  | true =>
      simp [x, handleNext, StreamInner.pollWrite, hreset, hopen, hempty,
        SendWindow.pollAcquire_eq, hclosed, hzero, Live.acquireNext,
        Live.setCredit, Live.emit, want]
  | false =>
      -- the credit is given back in as many steps as it has instructions
      generalize htaken : min live.inner.sendWindow.available
        (want live.inner.config buf) = taken
      have htaken' : min live.inner.sendWindow.available (UInt32.ofNat
          (min buf.length (min live.inner.config.maxFrameSize.toNat
            4294967295))) = taken := by
        rw [← htaken, want, Nat.min_assoc,
          show 2 ^ 32 - 1 = 4294967295 from rfl]
      by_cases hnone : taken = 0
      · simp [x, handleNext, StreamInner.pollWrite, hreset, hopen, hempty,
          SendWindow.pollAcquire_eq, hclosed, hzero, Live.acquireNext,
          Live.setCredit, Live.setState, htaken, htaken', hnone,
          Notify.program, SendWindow.grant, Emit.append_none]
      · simp [x, handleNext, StreamInner.pollWrite, hreset, hopen, hempty,
          SendWindow.pollAcquire_eq, hclosed, hzero, Live.acquireNext,
          Live.setCredit, Live.setState, Live.wake, htaken, htaken', hnone,
          Notify.program, Prim.exec, SendWindow.grant, Emit.append_none]

end Speaker

end NetMux
