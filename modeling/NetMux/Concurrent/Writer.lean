import Mathlib.Data.List.TakeWhile
import NetMux.Link.Simulation

/-!
# The writer task, byte by byte

`Session.writerNext` moves one frame to the wire in one step.  The task itself
feeds a frame to a `FramedWrite`, which encodes it into a buffer, and the
buffer goes to the transport in as many writes as the transport wants, any of
which may fail.  Meanwhile other tasks enqueue frames, and one of them may run
`initiate_shutdown`, which the writer notices at some later point.  Here each
of these is a step of its own.

Of tokio it is assumed that the queue is first in first out and loses nothing
when a `recv` is given up, and that `FramedWrite` keeps unwritten bytes in
order and writes before it takes another frame only when the buffer has
reached its boundary.

## Main results

* `written_prefix_enqueued` — what the transport has got is a prefix of what
  was enqueued, unless the select loop lost a frame that cannot be encoded.
* `holeRun_skips` — the loss of such a frame leaves a hole.
* `Follows.writerNext` — a turn of `Session.writerNext` is a run of this task.
-/

namespace NetMux

open Lib.Run

/-! ## The sink -/

/-- The bytes that are encoded and not yet written, and those the transport
has got. -/
structure FramedWrite where
  buffer : Bytes
  written : Bytes
  deriving DecidableEq, Repr

namespace FramedWrite

/-- Beyond this many bytes the buffer is written before another frame is
encoded. -/
def backpressureBoundary : Nat := 8 * 1024

/-- All bytes that were encoded. -/
def fed (k : FramedWrite) : Bytes := k.written ++ k.buffer

/-- The transport takes the first bytes of the buffer. -/
def write (k : FramedWrite) (n : Nat) : FramedWrite :=
  ⟨k.buffer.drop n, k.written ++ k.buffer.take n⟩

theorem fed_write (k : FramedWrite) (n : Nat) : (k.write n).fed = k.fed := by
  simp [fed, write]

end FramedWrite

/-- The payload is within the codec's limit. -/
def FrameCodec.fits (c : FrameCodec) (f : Frame) : Bool :=
  f.payloadLen ≤ c.maxPayload.toNat

theorem FrameCodec.encode_fits {c : FrameCodec} {f : Frame}
    (h : c.fits f = true) (dst : Bytes) :
    c.encode f dst = .ok (dst ++ encoding f) := by
  rw [encode_eq, if_neg (Nat.not_lt.mpr (of_decide_eq_true h))]

theorem FrameCodec.encode_refused {c : FrameCodec} {f : Frame}
    (h : c.fits f = false) (dst : Bytes) :
    c.encode f dst = .error (.protocol "data payload exceeds limit") := by
  rw [encode_eq, if_pos (Nat.not_le.mp (of_decide_eq_false h))]

def Frame.isGoAway : Frame → Bool
  | .goAway _ => true
  | _ => false

/-! ## The task -/

/-- The writer, by what it does next. -/
inductive WriterPc where
  /-- Select between the shutdown watch and the queue. -/
  | select
  /-- Feed a frame to the sink. -/
  | feeding (f : Frame)
  /-- Flush the sink. -/
  | flushing
  /-- Call `initiate_shutdown`, after a failure. -/
  | failing
  /-- Finish `initiate_shutdown`, which found the session open. -/
  | closing
  /-- Drain: take the next frame. -/
  | draining
  | drainFeeding (f : Frame)
  | drainFlushing
  /-- Shut the transport down. -/
  | drained
  | exited
  deriving DecidableEq, Repr

/-- How far the one effective call of `initiate_shutdown` has got. -/
inductive ShutdownStage where
  | unstarted
  /-- It has set `is_closing`. -/
  | swapped (code : ErrorCode)
  /-- It has enqueued the `GoAway`. -/
  | announced
  /-- It has tripped the watch. -/
  | tripped
  deriving DecidableEq, Repr

/-- The writer task with its queue and its sink, and two histories that no
code reads: the frames that were enqueued and those that were encoded. -/
structure WriterTask where
  codec : FrameCodec
  queue : List Frame
  sink : FramedWrite
  pc : WriterPc
  stage : ShutdownStage
  enqueued : List Frame
  encoded : List Frame
  deriving DecidableEq, Repr

/-- One atomic step. -/
inductive WriterStep where
  /-- Another task enqueues a frame that is no `GoAway`. -/
  | enqueue (f : Frame)
  /-- Another task calls `initiate_shutdown`. -/
  | shutdown (code : ErrorCode)
  | announce
  | trip
  /-- The select loop sees the watch. -/
  | stop
  | recv
  /-- The sink is ready for the frame, and encodes it. -/
  | encode
  /-- The transport takes some bytes of the buffer. -/
  | write (n : Nat)
  /-- The transport fails. -/
  | fail
  /-- A flush is done. -/
  | flushed
  /-- The writer goes on in its own call of `initiate_shutdown`. -/
  | close
  | tryRecv
  | exit
  deriving DecidableEq, Repr

namespace WriterTask

def new (codec : FrameCodec) : WriterTask :=
  ⟨codec, [], ⟨[], []⟩, .select, .unstarted, [], []⟩

/-- A frame is put into the queue, unless its receiver is gone. -/
def send (w : WriterTask) (f : Frame) : WriterTask :=
  if w.pc = .exited then w
  else { w with queue := w.queue ++ [f], enqueued := w.enqueued ++ [f] }

/-- The sink is being written out. -/
def writing (w : WriterTask) : Bool :=
  match w.pc with
  | .flushing => true
  | .drainFlushing => true
  | .feeding _ => FramedWrite.backpressureBoundary ≤ w.sink.buffer.length
  | .drainFeeding _ => FramedWrite.backpressureBoundary ≤ w.sink.buffer.length
  | _ => false

/-- Where a failure of the sink leads: out of the select loop, or out of the
drain. -/
def afterFailure : WriterPc → WriterPc
  | .feeding _ => .failing
  | .flushing => .failing
  | .drainFeeding _ => .drained
  | .drainFlushing => .drained
  | pc => pc

/-- Encode the frame being fed and go on, or fail. -/
def feed (w : WriterTask) (f : Frame) (next : WriterPc) : WriterTask :=
  if w.writing then w
  else
    match w.codec.encode f w.sink.buffer with
    | .ok buffer =>
        { w with
          sink := { w.sink with buffer := buffer }
          pc := next
          encoded := w.encoded ++ [f] }
    | .error _ => { w with pc := afterFailure w.pc }

def step (w : WriterTask) : WriterStep → WriterTask
  | .enqueue f => if f.isGoAway then w else w.send f
  | .shutdown code =>
      match w.stage with
      | .unstarted => { w with stage := .swapped code }
      | _ => w
  | .announce =>
      match w.stage with
      | .swapped code => { w.send (.goAway code) with stage := .announced }
      | _ => w
  | .trip =>
      match w.stage with
      | .announced => { w with stage := .tripped }
      | _ => w
  | .stop =>
      if w.pc = .select ∧ w.stage = .tripped then { w with pc := .draining }
      else w
  | .recv =>
      match w.pc, w.queue with
      | .select, f :: rest => { w with pc := .feeding f, queue := rest }
      | _, _ => w
  | .encode =>
      match w.pc with
      | .feeding f => w.feed f .flushing
      | .drainFeeding f => w.feed f .draining
      | _ => w
  | .write n => if w.writing then { w with sink := w.sink.write n } else w
  | .fail => if w.writing then { w with pc := afterFailure w.pc } else w
  | .flushed =>
      if w.sink.buffer = [] then
        match w.pc with
        | .flushing => { w with pc := .select }
        | .drainFlushing => { w with pc := .drained }
        | _ => w
      else w
  | .close =>
      match w.pc, w.stage with
      | .failing, .unstarted =>
          { w with pc := .closing, stage := .swapped .internalError }
      | .failing, _ => { w with pc := .draining }
      | .closing, .tripped => { w with pc := .draining }
      | _, _ => w
  | .tryRecv =>
      match w.pc, w.queue with
      | .draining, f :: rest => { w with pc := .drainFeeding f, queue := rest }
      | .draining, [] => { w with pc := .drainFlushing }
      | _, _ => w
  | .exit =>
      match w.pc with
      | .drained => { w with pc := .exited, queue := [] }
      | _ => w

/-- The step is where the select loop meets a frame that its codec refuses. -/
def losesInLoop (w : WriterTask) (a : WriterStep) : Bool :=
  match a, w.pc with
  | .encode, .feeding f => !w.codec.fits f
  | _, _ => false

/-- The step is where the drain meets a frame that its codec refuses. -/
def losesInDrain (w : WriterTask) (a : WriterStep) : Bool :=
  match a, w.pc with
  | .encode, .drainFeeding f => !w.codec.fits f
  | _, _ => false

/-- The frames that may reach the wire: all before the first that cannot be
encoded, and from there on only a `GoAway`. -/
def permitted (codec : FrameCodec) (fs : List Frame) : List Frame :=
  fs.takeWhile codec.fits ++ (fs.dropWhile codec.fits).filter Frame.isGoAway

/-! ## Frames keep their order -/

/-- The frame the writer has taken and not yet encoded. -/
def held : WriterPc → List Frame
  | .feeding f => [f]
  | .drainFeeding f => [f]
  | _ => []

/-- The drain is over. -/
def finished : WriterPc → Bool
  | .drained => true
  | .exited => true
  | _ => false

/-- In the select loop with no frame in the sink. -/
def fresh : WriterPc → Bool
  | .select => true
  | .feeding _ => true
  | _ => false

/-- What was encoded is in the sink or written, in order, and the rest of what
was enqueued is still to come or was given up at the end. -/
structure Sound (w : WriterTask) : Prop where
  fits : ∀ f ∈ w.encoded, w.codec.fits f = true
  bytes : w.sink.fed = w.encoded.flatMap FrameCodec.encoding
  order : ∃ rest, w.enqueued = w.encoded ++ rest ∧
    (finished w.pc = false → rest = held w.pc ++ w.queue)
  /-- The select loop flushes each frame before it takes the next. -/
  empty : fresh w.pc = true → w.sink.buffer = []

variable {w : WriterTask}

theorem sound_new (codec : FrameCodec) : (new codec).Sound where
  fits := fun _ hf => absurd hf List.not_mem_nil
  bytes := rfl
  order := ⟨[], rfl, fun _ => rfl⟩
  empty := fun _ => rfl

theorem Sound.send (h : w.Sound) (f : Frame) : (w.send f).Sound := by
  unfold WriterTask.send
  split
  · exact h
  · obtain ⟨rest, hrest, hqueue⟩ := h.order
    refine { h with order := ⟨rest ++ [f], ?_, fun hover => ?_⟩ }
    · rw [hrest, List.append_assoc]
    · rw [hqueue hover, List.append_assoc]

/-- The writer moves on without touching the sink. -/
theorem Sound.move (h : w.Sound) {pc : WriterPc} {queue : List Frame}
    (horder : finished pc = false →
      finished w.pc = false ∧ held w.pc ++ w.queue = held pc ++ queue)
    (hempty : fresh pc = true → w.sink.buffer = []) :
    Sound { w with pc := pc, queue := queue } where
  fits := h.fits
  bytes := h.bytes
  order := by
    obtain ⟨rest, hrest, hqueue⟩ := h.order
    refine ⟨rest, hrest, fun hover => ?_⟩
    rw [hqueue (horder hover).1]
    exact (horder hover).2
  empty := hempty

/-- Feeding a frame that fits. -/
theorem feed_fits {f : Frame} {next : WriterPc} (hready : w.writing = false)
    (hfits : w.codec.fits f = true) :
    w.feed f next =
      { w with
        sink := { w.sink with buffer := w.sink.buffer ++ FrameCodec.encoding f }
        pc := next
        encoded := w.encoded ++ [f] } := by
  simp [WriterTask.feed, hready, FrameCodec.encode_fits hfits]

/-- Feeding a frame that is refused. -/
theorem feed_refused {f : Frame} {next : WriterPc} (hready : w.writing = false)
    (hfits : w.codec.fits f = false) :
    w.feed f next = { w with pc := afterFailure w.pc } := by
  simp [WriterTask.feed, hready, FrameCodec.encode_refused hfits]

theorem Sound.feed (h : w.Sound) {f : Frame} {next : WriterPc}
    (hheld : held w.pc = [f]) (hover : finished w.pc = false)
    (hready : w.writing = false) (hfits : w.codec.fits f = true)
    (hnext : held next = [] ∧ fresh next = false) :
    (w.feed f next).Sound := by
  obtain ⟨rest, hrest, hqueue⟩ := h.order
  rw [hqueue hover, hheld] at hrest
  rw [feed_fits hready hfits]
  exact
    { fits := by
        intro g hg
        rcases List.mem_append.mp hg with hg | hg
        · exact h.fits g hg
        · rw [List.mem_singleton.mp hg]
          exact hfits
      bytes := by
        have hbytes := h.bytes
        unfold FramedWrite.fed at hbytes ⊢
        rw [← List.append_assoc, hbytes, List.flatMap_append]
        simp
      order := ⟨w.queue, by simp [hrest], fun _ => by rw [hnext.1]; rfl⟩
      empty := fun hfresh => by
        rw [hnext.2] at hfresh
        cases hfresh }

/-- **A step keeps the frames in order**, unless the select loop loses
one. -/
theorem Sound.step (h : w.Sound) {a : WriterStep}
    (hloop : w.losesInLoop a = false) : (w.step a).Sound := by
  cases a with
  | enqueue f =>
      simp only [WriterTask.step]
      split
      · exact h
      · exact h.send f
  | shutdown code =>
      simp only [WriterTask.step]
      split
      · exact { h with }
      · exact h
  | announce =>
      simp only [WriterTask.step]
      split
      · exact { h.send _ with }
      · exact h
  | trip =>
      simp only [WriterTask.step]
      split
      · exact { h with }
      · exact h
  | stop =>
      simp only [WriterTask.step]
      split
      · rename_i hstop
        refine h.move (fun _ => ?_) fun hfresh => nomatch hfresh
        rw [hstop.1]
        exact ⟨rfl, rfl⟩
      · exact h
  | recv =>
      simp only [WriterTask.step]
      split
      · rename_i f rest hpc hqueue
        refine h.move (fun _ => ?_) fun _ => h.empty (by rw [hpc]; rfl)
        rw [hpc, hqueue]
        exact ⟨rfl, rfl⟩
      · exact h
  | encode =>
      simp only [WriterTask.step]
      split
      · rename_i f hpc
        have hfits : w.codec.fits f = true := by
          simpa [losesInLoop, hpc] using hloop
        have hready : w.writing = false := by
          have hbuffer := h.empty (by rw [hpc]; rfl)
          simp [writing, hpc, hbuffer, FramedWrite.backpressureBoundary]
        exact h.feed (by rw [hpc]; rfl) (by rw [hpc]; rfl) hready hfits
          ⟨rfl, rfl⟩
      · rename_i f hpc
        cases hready : w.writing with
        | true =>
            rw [WriterTask.feed, if_pos hready]
            exact h
        | false =>
          cases hfits : w.codec.fits f with
          | true =>
              exact h.feed (by rw [hpc]; rfl) (by rw [hpc]; rfl) hready hfits
                ⟨rfl, rfl⟩
          | false =>
              rw [feed_refused hready hfits, hpc]
              exact h.move (fun hover => nomatch hover)
                fun hfresh => nomatch hfresh
      · exact h
  | write n =>
      simp only [WriterTask.step]
      split
      · refine { h with bytes := ?_, empty := fun hfresh => ?_ }
        · rw [FramedWrite.fed_write]
          exact h.bytes
        · show w.sink.buffer.drop n = []
          rw [h.empty hfresh, List.drop_nil]
      · exact h
  | fail =>
      simp only [WriterTask.step]
      split
      · rename_i hwriting
        cases hpc : w.pc with
        | feeding f =>
            -- The sink is empty here, so there is nothing to fail at.
            have hbuffer := h.empty (by rw [hpc]; rfl)
            simp [writing, hpc, hbuffer, FramedWrite.backpressureBoundary]
              at hwriting
        | flushing =>
            refine h.move (fun _ => ?_) fun hfresh => nomatch hfresh
            rw [hpc]
            exact ⟨rfl, rfl⟩
        | drainFeeding f =>
            exact h.move (fun hover => nomatch hover)
              fun hfresh => nomatch hfresh
        | drainFlushing =>
            exact h.move (fun hover => nomatch hover)
              fun hfresh => nomatch hfresh
        | _ => simp [writing, hpc] at hwriting
      · exact h
  | flushed =>
      simp only [WriterTask.step]
      split
      · rename_i hbuffer
        split
        · rename_i hpc
          refine h.move (fun _ => ?_) fun _ => hbuffer
          rw [hpc]
          exact ⟨rfl, rfl⟩
        · exact h.move (fun hover => nomatch hover) fun _ => hbuffer
        · exact h
      · exact h
  | close =>
      have hdrain : ∀ {pc}, w.pc = pc → held pc = [] → finished pc = false →
          Sound { w with pc := .draining } := by
        rintro pc rfl hheld hover
        exact h.move (fun _ => ⟨hover, by rw [hheld]; rfl⟩)
          fun hfresh => nomatch hfresh
      simp only [WriterTask.step]
      split
      · rename_i hpc _
        have hclosing : Sound { w with pc := .closing } := by
          refine h.move (fun _ => ?_) fun hfresh => nomatch hfresh
          rw [hpc]
          exact ⟨rfl, rfl⟩
        exact { hclosing with }
      · rename_i hpc _
        exact hdrain hpc rfl rfl
      · rename_i hpc _
        exact hdrain hpc rfl rfl
      · exact h
  | tryRecv =>
      simp only [WriterTask.step]
      split
      · rename_i f rest hpc hqueue
        refine h.move (fun _ => ?_) fun hfresh => nomatch hfresh
        rw [hpc, hqueue]
        exact ⟨rfl, rfl⟩
      · rename_i hpc hqueue
        refine h.move (fun _ => ?_) fun hfresh => nomatch hfresh
        rw [hpc]
        exact ⟨rfl, rfl⟩
      · exact h
  | exit =>
      simp only [WriterTask.step]
      split
      · exact h.move (fun hover => nomatch hover) fun hfresh => nomatch hfresh
      · exact h

/-! ## Nothing before the `GoAway` is lost -/

/-- The select loop is over. -/
def stopped : WriterPc → Bool
  | .draining => true
  | .drainFeeding _ => true
  | .drainFlushing => true
  | .drained => true
  | .exited => true
  | _ => false

/-- The drain has found the queue empty. -/
def emptied : WriterPc → Bool
  | .drainFlushing => true
  | .drained => true
  | .exited => true
  | _ => false

/-- Nothing has failed: the select loop ended because of the watch, and what
the drain left in the queue came after the `GoAway`. -/
structure Orderly (w : WriterTask) : Prop where
  announced : w.stage = .announced ∨ w.stage = .tripped →
    ∃ code, .goAway code ∈ w.enqueued
  tripped : stopped w.pc = true → w.stage = .tripped
  calm : w.pc ≠ .failing ∧ w.pc ≠ .closing
  rest : emptied w.pc = true → ∃ rest, w.enqueued = w.encoded ++ rest ∧
    ∀ f ∈ rest, f.isGoAway = false
  flushed : finished w.pc = true → w.sink.buffer = []

theorem orderly_new (codec : FrameCodec) : (new codec).Orderly where
  announced := by rintro (h | h) <;> cases h
  tripped := fun h => nomatch h
  calm := ⟨nofun, nofun⟩
  rest := fun h => nomatch h
  flushed := fun h => nomatch h

/-- A task that has stopped is past the announcement. -/
theorem Orderly.running (h : w.Orderly) (hstage : w.stage ≠ .tripped) :
    stopped w.pc = false := by
  cases hpc : stopped w.pc with
  | false => rfl
  | true => exact absurd (h.tripped hpc) hstage

theorem emptied_of_finished {pc : WriterPc} (h : finished pc = true) :
    emptied pc = true := by
  cases pc with
  | drained => rfl
  | exited => rfl
  | _ => cases h

theorem stopped_of_emptied {pc : WriterPc} (h : emptied pc = true) :
    stopped pc = true := by
  cases pc with
  | drainFlushing => rfl
  | drained => rfl
  | exited => rfl
  | _ => cases h

/-- A frame that is no `GoAway`. -/
theorem Orderly.send (h : w.Orderly) {f : Frame} (hf : f.isGoAway = false) :
    (w.send f).Orderly := by
  unfold WriterTask.send
  split
  · exact h
  · refine { h with announced := fun hstage => ?_, rest := fun hpc => ?_ }
    · obtain ⟨code, hcode⟩ := h.announced hstage
      exact ⟨code, List.mem_append_left _ hcode⟩
    · obtain ⟨rest, hrest, hnone⟩ := h.rest hpc
      refine ⟨rest ++ [f], ?_, ?_⟩
      · rw [hrest, List.append_assoc]
      · intro g hg
        rcases List.mem_append.mp hg with hg | hg
        · exact hnone g hg
        · rw [List.mem_singleton.mp hg]
          exact hf

/-- The writer is still in its select loop. -/
theorem Orderly.stay (h : w.Orderly) {pc : WriterPc} {queue : List Frame}
    (hpc : stopped pc = false) (hcalm : pc ≠ .failing ∧ pc ≠ .closing) :
    Orderly { w with pc := pc, queue := queue } where
  announced := h.announced
  tripped := fun hstop => by rw [hpc] at hstop; cases hstop
  calm := hcalm
  rest := fun hempty => by
    rw [stopped_of_emptied hempty] at hpc
    cases hpc
  flushed := fun hover => by
    rw [stopped_of_emptied (emptied_of_finished hover)] at hpc
    cases hpc

/-- The writer goes on with its drain. -/
theorem Orderly.drain (h : w.Orderly) {pc : WriterPc} {queue : List Frame}
    (hstage : w.stage = .tripped) (hpc : emptied pc = false)
    (hcalm : pc ≠ .failing ∧ pc ≠ .closing) :
    Orderly { w with pc := pc, queue := queue } where
  announced := h.announced
  tripped := fun _ => hstage
  calm := hcalm
  rest := fun hempty => by rw [hpc] at hempty; cases hempty
  flushed := fun hover => by
    rw [emptied_of_finished hover] at hpc
    cases hpc

/-- The writer has drained the queue. -/
theorem Orderly.leave (h : w.Orderly) {pc : WriterPc} {queue : List Frame}
    (hstage : w.stage = .tripped)
    (hrest : ∃ rest, w.enqueued = w.encoded ++ rest ∧
      ∀ f ∈ rest, f.isGoAway = false)
    (hcalm : pc ≠ .failing ∧ pc ≠ .closing)
    (hbuffer : finished pc = true → w.sink.buffer = []) :
    Orderly { w with pc := pc, queue := queue } where
  announced := h.announced
  tripped := fun _ => hstage
  calm := hcalm
  rest := fun _ => hrest
  flushed := hbuffer

theorem Orderly.step (h : w.Orderly) (hsound : w.Sound) {a : WriterStep}
    (hfail : a ≠ .fail) (hloop : w.losesInLoop a = false)
    (hdrain : w.losesInDrain a = false) : (w.step a).Orderly := by
  cases a with
  | enqueue f =>
      simp only [WriterTask.step]
      split
      · exact h
      · rename_i hf
        exact h.send (Bool.not_eq_true _ ▸ hf)
  | shutdown code =>
      simp only [WriterTask.step]
      split
      · rename_i hstage
        have hrun := h.running (by rw [hstage]; exact nofun)
        exact
          { h with
            announced := by rintro (hs | hs) <;> cases hs
            tripped := fun hstop => by rw [hrun] at hstop; cases hstop }
      · exact h
  | announce =>
      simp only [WriterTask.step]
      split
      · rename_i code hstage
        have hrun := h.running (by rw [hstage]; exact nofun)
        have hpc : w.pc ≠ .exited := by
          intro hpc
          rw [hpc] at hrun
          cases hrun
        rw [WriterTask.send, if_neg hpc]
        exact
          { announced := fun _ =>
              ⟨code, List.mem_append_right _ (List.mem_singleton_self _)⟩
            tripped := fun hstop => by rw [hrun] at hstop; cases hstop
            calm := h.calm
            rest := fun hempty => by
              rw [stopped_of_emptied hempty] at hrun
              cases hrun
            flushed := h.flushed }
      · exact h
  | trip =>
      simp only [WriterTask.step]
      split
      · rename_i hstage
        exact
          { h with
            announced := fun _ => h.announced (.inl hstage)
            tripped := fun _ => rfl }
      · exact h
  | stop =>
      simp only [WriterTask.step]
      split
      · rename_i hstop
        exact h.drain hstop.2 rfl ⟨nofun, nofun⟩
      · exact h
  | recv =>
      simp only [WriterTask.step]
      split
      · exact h.stay rfl ⟨nofun, nofun⟩
      · exact h
  | encode =>
      simp only [WriterTask.step]
      split
      · rename_i f hpc
        have hfits : w.codec.fits f = true := by
          simpa [losesInLoop, hpc] using hloop
        cases hready : w.writing with
        | true =>
            rw [WriterTask.feed, if_pos hready]
            exact h
        | false =>
            rw [feed_fits hready hfits]
            exact
              { announced := h.announced
                tripped := fun hstop => nomatch hstop
                calm := ⟨nofun, nofun⟩
                rest := fun hempty => nomatch hempty
                flushed := fun hover => nomatch hover }
      · rename_i f hpc
        have hfits : w.codec.fits f = true := by
          simpa [losesInDrain, hpc] using hdrain
        cases hready : w.writing with
        | true =>
            rw [WriterTask.feed, if_pos hready]
            exact h
        | false =>
            rw [feed_fits hready hfits]
            exact
              { announced := h.announced
                tripped := fun _ => h.tripped (by rw [hpc]; rfl)
                calm := ⟨nofun, nofun⟩
                rest := fun hempty => nomatch hempty
                flushed := fun hover => nomatch hover }
      · exact h
  | write n =>
      simp only [WriterTask.step]
      split
      · refine { h with flushed := fun hover => ?_ }
        show w.sink.buffer.drop n = []
        rw [h.flushed hover, List.drop_nil]
      · exact h
  | fail => exact absurd rfl hfail
  | flushed =>
      simp only [WriterTask.step]
      split
      · rename_i hbuffer
        split
        · exact h.stay rfl ⟨nofun, nofun⟩
        · rename_i hpc
          exact h.leave (h.tripped (by rw [hpc]; rfl))
            (h.rest (by rw [hpc]; rfl)) ⟨nofun, nofun⟩ fun _ => hbuffer
        · exact h
      · exact h
  | close =>
      simp only [WriterTask.step]
      split
      · rename_i hpc _
        exact absurd hpc h.calm.1
      · rename_i hpc _
        exact absurd hpc h.calm.1
      · rename_i hpc _
        exact absurd hpc h.calm.2
      · exact h
  | tryRecv =>
      simp only [WriterTask.step]
      split
      · rename_i f rest hpc hqueue
        exact h.drain (h.tripped (by rw [hpc]; rfl)) rfl ⟨nofun, nofun⟩
      · rename_i hpc hqueue
        obtain ⟨rest, hrest, hleft⟩ := hsound.order
        rw [hpc, hqueue] at hleft
        refine h.leave (h.tripped (by rw [hpc]; rfl)) ⟨rest, hrest, ?_⟩
          ⟨nofun, nofun⟩ fun hover => nomatch hover
        intro g hg
        rw [hleft rfl] at hg
        exact absurd hg List.not_mem_nil
      · exact h
  | exit =>
      simp only [WriterTask.step]
      split
      · rename_i hpc
        exact h.leave (h.tripped (by rw [hpc]; rfl))
          (h.rest (by rw [hpc]; rfl)) ⟨nofun, nofun⟩
          fun _ => h.flushed (by rw [hpc]; rfl)
      · exact h

/-! ## Whole runs -/

/-- Frames that all fit, at the front of a queue, may reach the wire. -/
theorem encoded_permitted {codec : FrameCodec} {fs rest : List Frame}
    (h : ∀ f ∈ fs, codec.fits f = true) : fs <+: permitted codec (fs ++ rest) := by
  unfold permitted
  rw [List.takeWhile_append_of_pos h, List.append_assoc]
  exact List.prefix_append _ _

theorem flatMap_mono {fs gs : List Frame} (h : fs <+: gs) :
    fs.flatMap FrameCodec.encoding <+: gs.flatMap FrameCodec.encoding := by
  obtain ⟨rest, rfl⟩ := h
  rw [List.flatMap_append]
  exact List.prefix_append _ _

/-- A part of a list that ends in a `GoAway` is within the first of two
pieces when the second holds none. -/
theorem prefix_of_goAway {pre post fs rest : List Frame} {code : ErrorCode}
    (h : pre ++ .goAway code :: post = fs ++ rest)
    (hrest : ∀ f ∈ rest, f.isGoAway = false) :
    pre ++ [.goAway code] <+: fs := by
  rcases List.append_eq_append_iff.mp h with ⟨gap, rfl, hgap⟩ | ⟨gap, -, rfl⟩
  · cases gap with
    | nil =>
        rw [List.nil_append] at hgap
        have hcode := hrest (.goAway code)
          (by rw [← hgap]; exact List.mem_cons_self ..)
        cases hcode
    | cons g gap =>
        obtain ⟨rfl, -⟩ := List.cons.inj hgap
        exact ⟨gap, by simp⟩
  · have hcode := hrest (.goAway code)
      (List.mem_append_right _ (List.mem_cons_self ..))
    cases hcode

theorem step_codec (w : WriterTask) (a : WriterStep) :
    (w.step a).codec = w.codec := by
  cases a <;> simp only [step, send, feed] <;> repeat' split
  all_goals rfl

/-- **What reaches the wire is a prefix of what was enqueued.**  Take any run
of the writer, in which any tasks enqueue frames and start a shutdown at any
time and the transport takes as many bytes at a time as it likes and fails at
any of them, and in which the select loop never meets a frame that its codec
refuses.  The bytes the transport has got are a prefix of the encodings of the
enqueued frames, in order, where from the first frame that cannot be encoded
on only a `GoAway` counts.  When in addition neither the transport nor the
encoding of a drained frame ever fails and the writer has exited, a `GoAway`
was enqueued, and it and all frames before it have been written. -/
theorem written_prefix_enqueued (codec : FrameCodec) (as : List WriterStep)
    (hloop : Along step (fun w a => w.losesInLoop a = false) (new codec) as) :
    (run step (new codec) as).sink.written <+:
        (permitted codec (run step (new codec) as).enqueued).flatMap
          FrameCodec.encoding ∧
      (Along step (fun w a => a ≠ .fail ∧ w.losesInDrain a = false)
          (new codec) as →
        (run step (new codec) as).pc = .exited →
        (∃ code, .goAway code ∈ (run step (new codec) as).enqueued) ∧
        ∀ pre code post, (run step (new codec) as).enqueued =
            pre ++ .goAway code :: post →
          (pre ++ [.goAway code]).flatMap FrameCodec.encoding <+:
            (run step (new codec) as).sink.written) := by
  have hcodec : (run step (new codec) as).codec = codec :=
    run_invariant_all step (I := fun w => w.codec = codec)
      (fun w a h => (step_codec w a).trans h) as _ rfl
  have hsound : (run step (new codec) as).Sound :=
    run_invariant step (fun w a h hstep => h.step hstep) as _
      (sound_new codec) hloop
  obtain ⟨rest, hrest, -⟩ := hsound.order
  constructor
  · have hfits := hsound.fits
    rw [hcodec] at hfits
    have hfed : (run step (new codec) as).sink.written <+:
        (run step (new codec) as).sink.fed := List.prefix_append _ _
    rw [hsound.bytes] at hfed
    rw [hrest]
    exact hfed.trans (flatMap_mono (encoded_permitted hfits))
  · intro hcalm hexit
    have horderly : (run step (new codec) as).Orderly := by
      refine (run_invariant step (I := fun w => w.Sound ∧ w.Orderly) ?_ as _
        ⟨sound_new codec, orderly_new codec⟩ (hloop.and step hcalm)).2
      rintro w a ⟨hs, ho⟩ ⟨hl, hf, hd⟩
      exact ⟨hs.step hl, ho.step hs hf hl hd⟩
    have hwritten : (run step (new codec) as).sink.written =
        (run step (new codec) as).encoded.flatMap FrameCodec.encoding := by
      rw [← hsound.bytes, FramedWrite.fed,
        horderly.flushed (by rw [hexit]; rfl), List.append_nil]
    obtain ⟨left, hleft, hnone⟩ := horderly.rest (by rw [hexit]; rfl)
    refine ⟨horderly.announced (.inr (horderly.tripped (by rw [hexit]; rfl))),
      fun pre code post hsplit => ?_⟩
    rw [hwritten]
    exact flatMap_mono (prefix_of_goAway (hsplit.symm.trans hleft) hnone)

/-- One byte of stream 1. -/
def small : Frame := .data 1 Flags.empty [7]

/-- One frame is written in two pieces; then the session is shut down. -/
def politeRun : List WriterStep :=
  [.enqueue small, .recv, .encode, .write 5, .write 8, .flushed,
    .shutdown .normal, .announce, .trip, .stop, .tryRecv, .encode, .tryRecv,
    .write 12, .flushed, .exit]

theorem written_prefix_enqueued_politeRun :
    (run step (new (FrameCodec.new 100)) politeRun).enqueued =
        [small, .goAway .normal] ∧
      [small, .goAway .normal].flatMap FrameCodec.encoding <+:
        (run step (new (FrameCodec.new 100)) politeRun).sink.written := by
  have henqueued : (run step (new (FrameCodec.new 100)) politeRun).enqueued =
      [small] ++ .goAway .normal :: [] := by
    decide +kernel
  exact ⟨henqueued, ((written_prefix_enqueued (FrameCodec.new 100) politeRun
    (by decide +kernel)).2 (by decide +kernel) (by decide +kernel)).2
      [small] .normal [] henqueued⟩

/-- A frame that the codec refuses is taken by the select loop with another
one behind it. -/
def holeRun (big : Frame) : List WriterStep :=
  [.enqueue big, .enqueue small, .recv, .encode, .close, .announce, .trip,
    .close, .tryRecv, .encode, .tryRecv, .encode, .tryRecv, .write 25,
    .flushed, .exit]

/-- The drain goes on with the frame behind it. -/
theorem run_holeRun {codec : FrameCodec} {big : Frame}
    (hbig : codec.fits big = false) (hdata : big.isGoAway = false)
    (hsmall : codec.fits small = true) :
    (run step (new codec) (holeRun big)).enqueued =
        [big, small, .goAway .internalError] ∧
      (run step (new codec) (holeRun big)).sink.written =
        FrameCodec.encoding small ++
          FrameCodec.encoding (.goAway .internalError) := by
  have hgo : codec.fits (.goAway .internalError) = true :=
    decide_eq_true (Nat.zero_le _)
  have hlen : (FrameCodec.encoding small ++
      FrameCodec.encoding (.goAway .internalError)).length = 25 := by
    decide
  have hshort : (FrameCodec.encoding small).length = 13 := by decide
  have hplain : small.isGoAway = false := rfl
  have htake := List.take_of_length_le (Nat.le_of_eq hlen)
  have hdrop := List.drop_of_length_le (Nat.le_of_eq hlen)
  have hrun : run step (new codec) (holeRun big) =
      { codec := codec
        queue := []
        sink := ⟨[], FrameCodec.encoding small ++
          FrameCodec.encoding (.goAway .internalError)⟩
        pc := .exited
        stage := .tripped
        enqueued := [big, small, .goAway .internalError]
        encoded := [small, .goAway .internalError] } := by
    simp [holeRun, run, step, send, feed, writing, afterFailure, new, hdata,
      hplain, FrameCodec.encode_refused hbig, FrameCodec.encode_fits hsmall,
      FrameCodec.encode_fits hgo, FramedWrite.backpressureBoundary, hshort,
      FramedWrite.write, hdrop, htake]
  rw [hrun]
  exact ⟨rfl, rfl⟩

/-- The frame of a write of 16 MiB and one byte. -/
def longFrame : Frame := .data 1 Flags.empty (List.replicate 16777217 0)

/-- With `max_frame_size` above the codec's ceiling, a write fills a frame that
the codec refuses, and the next byte of its stream is written nevertheless. -/
theorem holeRun_skips :
    ¬ (run step (new (FrameCodec.new 16777217))
        (holeRun longFrame)).sink.written <+:
      (permitted (FrameCodec.new 16777217)
        (run step (new (FrameCodec.new 16777217))
          (holeRun longFrame)).enqueued).flatMap FrameCodec.encoding := by
  have hlong : (FrameCodec.new 16777217).fits longFrame = false := by
    refine decide_eq_false (Nat.not_le.mpr ?_)
    show 16777216 < (List.replicate 16777217 (0 : UInt8)).length
    rw [List.length_replicate]
    decide
  obtain ⟨henqueued, hwritten⟩ := run_holeRun hlong rfl
    (show (FrameCodec.new 16777217).fits small = true by decide)
  have hpermitted : permitted (FrameCodec.new 16777217)
      [longFrame, small, .goAway .internalError] = [.goAway .internalError] := by
    simp only [permitted, List.takeWhile_cons, List.dropWhile_cons, hlong]
    rfl
  rw [henqueued, hwritten, hpermitted]
  decide

end WriterTask

/-! ## A turn of `writerNext` -/

/-- A session and its writer between two turns. -/
structure Follows (s : Session) (w : WriterTask) : Prop where
  codec : w.codec = s.codec
  queue : w.queue = s.out.queue
  stage : w.stage = if s.isClosing then .tripped else .unstarted
  closed : s.out.closed = true ↔ s.writer = .exited
  pc : w.pc =
    match s.writer with
    | .running => .select
    | .draining => .draining
    | .flushed => .drained
    | .exited => .exited
  buffer : s.writer = .running → w.sink.buffer = []

namespace Follows

open WriterTask

variable {s : Session} {w : WriterTask}

theorem exited_iff (h : Follows s w) : w.pc = .exited ↔ s.writer = .exited := by
  rw [h.pc]
  cases s.writer <;> simp

theorem send (h : Follows s w) (f : Frame) :
    (w.send f).queue = (s.out.send f).queue ∧ (w.send f).pc = w.pc ∧
      (w.send f).sink = w.sink ∧ (w.send f).codec = w.codec ∧
      (w.send f).stage = w.stage := by
  unfold WriterTask.send Chan.send
  by_cases hexit : s.writer = .exited
  · rw [if_pos (h.exited_iff.mpr hexit), if_pos (h.closed.mpr hexit)]
    exact ⟨h.queue, rfl, rfl, rfl, rfl⟩
  · rw [if_neg fun hpc => hexit (h.exited_iff.mp hpc),
      if_neg fun hclosed => hexit (h.closed.mp hclosed), h.queue]
    exact ⟨rfl, rfl, rfl, rfl, rfl⟩

/-- A frame is enqueued. -/
theorem enqueue (h : Follows s w) {f : Frame} (hf : f.isGoAway = false) :
    Follows (s.enqueue f) (w.step (.enqueue f)) := by
  obtain ⟨hqueue, hpc, hsink, hcodec, hstage⟩ := h.send f
  have hstep : w.step (.enqueue f) = w.send f := by simp [step, hf]
  rw [hstep]
  exact
    { codec := hcodec.trans h.codec
      queue := hqueue
      stage := hstage.trans h.stage
      closed := by
        show (s.out.send f).closed = true ↔ _
        rw [Chan.send_closed]
        exact h.closed
      pc := hpc.trans h.pc
      buffer := fun hrun => by rw [hsink]; exact h.buffer hrun }

/-- A shutdown with nobody in between. -/
theorem initiateShutdown (h : Follows s w) (code : ErrorCode) :
    ∃ as, Follows (s.initiateShutdown code) (run step w as) ∧
      (run step w as).sink = w.sink := by
  unfold Session.initiateShutdown
  cases hcl : s.isClosing with
  | true => exact ⟨[], h, rfl⟩
  | false =>
      obtain ⟨hqueue, hpc, hsink, hcodec, -⟩ := h.send (.goAway code)
      have hstart : w.step (.shutdown code) =
          { w with stage := .swapped code } := by
        simp [step, h.stage, hcl]
      have hrun : run step w [.shutdown code, .announce, .trip] =
          { w.send (.goAway code) with stage := .tripped } := by
        rw [run_cons, hstart]
        simp only [run, List.foldl, step, WriterTask.send]
        split <;> rfl
      refine ⟨[.shutdown code, .announce, .trip], ?_, ?_⟩
      · rw [hrun]
        exact
          { codec := hcodec.trans h.codec
            queue := hqueue
            stage := rfl
            closed := by
              show (s.out.send (.goAway code)).closed = true ↔ _
              rw [Chan.send_closed]
              exact h.closed
            pc := hpc.trans h.pc
            buffer := fun hrunning => by
              show (w.send (.goAway code)).sink.buffer = []
              rw [hsink]
              exact h.buffer hrunning }
      · rw [hrun]
        exact hsink

/-- The select loop sees the watch. -/
theorem writerStop (h : Follows s w) (hshut : s.shutdown = s.isClosing) :
    Follows s.writerStop (w.step .stop) := by
  have hrunning : w.pc = .select ↔ s.writer = .running := by
    rw [h.pc]
    cases s.writer <;> simp
  have htripped : w.stage = .tripped ↔ s.shutdown = true := by
    rw [h.stage, hshut]
    cases s.isClosing <;> simp
  simp only [Session.writerStop, step, hrunning, htripped]
  split
  · rename_i hstop
    refine { h with closed := ?_, pc := rfl, buffer := fun hd => nomatch hd }
    rw [h.closed, hstop.1]
    exact ⟨fun hd => (nomatch hd), fun hd => (nomatch hd)⟩
  · exact h

/-- The select loop has taken a frame. -/
theorem taken (h : Follows s w) {f : Frame} {rest : List Frame}
    (hphase : s.writer = .running) (hqueue : s.out.queue = f :: rest) :
    w.step .recv = { w with pc := .feeding f, queue := rest } := by
  have hpc := h.pc
  rw [hphase] at hpc
  simp [step, hpc, h.queue, hqueue]

/-- The frame is encoded and flushed. -/
theorem loopTurn (h : Follows s w) {f : Frame} {rest : List Frame}
    (hphase : s.writer = .running) (hqueue : s.out.queue = f :: rest)
    (hfits : s.codec.fits f = true) :
    ∃ as, Follows { s with out := { s.out with queue := rest } }
        (run step w as) ∧
      (run step w as).sink.fed = w.sink.fed ++ FrameCodec.encoding f := by
  have hbuffer := h.buffer hphase
  have hpc := h.pc
  rw [hphase] at hpc
  refine ⟨[.recv, .encode, .write (FrameCodec.encoding f).length, .flushed],
    ?_⟩
  have hrun : run step w [.recv, .encode,
      .write (FrameCodec.encoding f).length, .flushed] =
        { w with
          queue := rest
          sink := ⟨[], w.sink.written ++ FrameCodec.encoding f⟩
          encoded := w.encoded ++ [f] } := by
    rw [run_cons, h.taken hphase hqueue]
    simp [run, List.foldl, step, feed, writing, hbuffer, FramedWrite.write,
      FramedWrite.backpressureBoundary, h.codec,
      FrameCodec.encode_fits hfits, hpc]
  rw [hrun]
  refine ⟨{ h with queue := rfl, buffer := fun _ => rfl }, ?_⟩
  simp [FramedWrite.fed, hbuffer]

/-- The frame is refused, the writer runs `initiate_shutdown` and begins to
drain. -/
theorem loopRefused (h : Follows s w) {f : Frame} {rest : List Frame}
    (hphase : s.writer = .running) (hqueue : s.out.queue = f :: rest)
    (hfits : s.codec.fits f = false) :
    ∃ as, Follows
        { Session.initiateShutdown
            { s with out := { s.out with queue := rest } } .internalError with
          writer := .draining
          encodeFailed := true }
        (run step w as) ∧
      (run step w as).sink = w.sink := by
  have hbuffer := h.buffer hphase
  have hopen : s.out.closed = false := by
    have hclosed := h.closed
    rw [hphase] at hclosed
    simpa using hclosed
  have hencode : ({ w with pc := .feeding f, queue := rest } :
      WriterTask).step .encode = { w with pc := .failing, queue := rest } := by
    simp [step, feed, writing, hbuffer, FramedWrite.backpressureBoundary,
      h.codec, FrameCodec.encode_refused hfits, afterFailure]
  unfold Session.initiateShutdown
  cases hcl : s.isClosing with
  | true =>
      have hstage : w.stage = .tripped := by rw [h.stage, hcl]; rfl
      refine ⟨[.recv, .encode, .close], ?_⟩
      have hrun : run step w [.recv, .encode, .close] =
          { w with pc := .draining, queue := rest } := by
        rw [run_cons, h.taken hphase hqueue, run_cons, hencode]
        simp [run, List.foldl, step, hstage]
      rw [hrun]
      exact
        ⟨{ codec := h.codec
           queue := rfl
           stage := hstage.trans (by simp)
           closed := by simp [hopen]
           pc := rfl
           buffer := fun hd => nomatch hd }, rfl⟩
  | false =>
      have hstage : w.stage = .unstarted := by rw [h.stage, hcl]; rfl
      refine ⟨[.recv, .encode, .close, .announce, .trip, .close], ?_⟩
      have hrun : run step w [.recv, .encode, .close, .announce, .trip,
          .close] =
          { w with
            pc := .draining
            queue := rest ++ [.goAway .internalError]
            stage := .tripped
            enqueued := w.enqueued ++ [.goAway .internalError] } := by
        rw [run_cons, h.taken hphase hqueue, run_cons, hencode]
        simp [run, List.foldl, step, hstage, WriterTask.send]
      rw [hrun]
      exact
        ⟨{ codec := h.codec
           queue := by simp [Session.enqueue, Chan.send, hopen]
           stage := rfl
           closed := by simp [Session.enqueue, hopen]
           pc := rfl
           buffer := fun hd => nomatch hd }, rfl⟩

/-- The drain has taken a frame and the sink is ready for it. -/
theorem drainTaken (h : Follows s w) {f : Frame} {rest : List Frame}
    (hphase : s.writer = .draining) (hqueue : s.out.queue = f :: rest) :
    ∃ sink, run step w [.tryRecv, .write w.sink.buffer.length] =
        { w with pc := .drainFeeding f, queue := rest, sink := sink } ∧
      sink.fed = w.sink.fed ∧
      sink.buffer.length < FramedWrite.backpressureBoundary := by
  have hpc := h.pc
  rw [hphase] at hpc
  have hrecv : w.step .tryRecv =
      { w with pc := .drainFeeding f, queue := rest } := by
    simp [step, hpc, h.queue, hqueue]
  rw [run_cons, hrecv]
  by_cases hlong : FramedWrite.backpressureBoundary ≤ w.sink.buffer.length
  · refine ⟨w.sink.write w.sink.buffer.length, ?_, FramedWrite.fed_write _ _,
      ?_⟩
    · simp [run, List.foldl, step, writing, hlong]
    · simp [FramedWrite.write, FramedWrite.backpressureBoundary]
  · refine ⟨w.sink, ?_, rfl, Nat.not_le.mp hlong⟩
    simp [run, List.foldl, step, writing, hlong]

/-- **A turn of the writer with nobody in between is `writerNext`.** -/
theorem writerNext (h : Follows s w) :
    ∃ as, Follows s.writerNext.2 (run step w as) ∧
      (run step w as).sink.fed =
        w.sink.fed ++ s.writerNext.1.toList.flatMap FrameCodec.encoding := by
  have hpc := h.pc
  have hclosed := h.closed
  cases hphase : s.writer with
  | running =>
      cases hqueue : s.out.queue with
      | nil =>
          simp only [Session.writerNext, hphase, hqueue]
          exact ⟨[], h, by simp⟩
      | cons f rest =>
        rw [System.writerNext_running hphase hqueue]
        cases hfits : s.codec.fits f with
        | true =>
            rw [if_neg (Nat.not_lt.mpr (of_decide_eq_true hfits))]
            obtain ⟨as, hfollows, hfed⟩ := h.loopTurn hphase hqueue hfits
            exact ⟨as, hfollows, by simpa using hfed⟩
        | false =>
            rw [if_pos (Nat.not_le.mp (of_decide_eq_false hfits))]
            obtain ⟨as, hfollows, hsink⟩ := h.loopRefused hphase hqueue hfits
            exact ⟨as, hfollows, by simp [hsink]⟩
  | draining =>
      rw [hphase] at hpc hclosed
      cases hqueue : s.out.queue with
      | nil =>
          simp only [Session.writerNext, hphase, hqueue]
          refine ⟨[.tryRecv, .write w.sink.buffer.length, .flushed], ?_⟩
          have hrun :
              run step w [.tryRecv, .write w.sink.buffer.length, .flushed] =
                { w with
                  pc := .drained
                  sink := w.sink.write w.sink.buffer.length } := by
            simp [run, List.foldl, step, hpc, h.queue, hqueue, writing,
              FramedWrite.write]
          rw [hrun]
          refine ⟨{ h with
            closed := hclosed.trans (by simp)
            pc := rfl
            buffer := by simp }, ?_⟩
          simp [FramedWrite.fed_write]
      | cons f rest =>
        rw [System.writerNext_draining hphase hqueue]
        obtain ⟨sink, htaken, hfed, hshort⟩ := h.drainTaken hphase hqueue
        have hready : ({ w with
            pc := .drainFeeding f, queue := rest, sink := sink } :
              WriterTask).writing = false :=
          decide_eq_false (Nat.not_le.mpr hshort)
        refine ⟨[.tryRecv, .write w.sink.buffer.length] ++ [.encode], ?_⟩
        rw [run_append, htaken]
        show Follows _ (WriterTask.feed _ f .draining) ∧
          (WriterTask.feed _ f .draining).sink.fed = _
        cases hfits : s.codec.fits f with
        | true =>
            rw [if_neg (Nat.not_lt.mpr (of_decide_eq_true hfits)),
              feed_fits hready (by rw [h.codec]; exact hfits)]
            refine ⟨{ h with
              queue := rfl
              pc := by simp [System.popOut, hphase]
              buffer := fun hrun => ?_ }, ?_⟩
            · rw [show (System.popOut s rest).writer = .draining from hphase]
                at hrun
              cases hrun
            · show sink.written ++ (sink.buffer ++ FrameCodec.encoding f) = _
              rw [← List.append_assoc]
              exact (congrArg (· ++ FrameCodec.encoding f) hfed).trans
                (by simp)
        | false =>
            rw [if_pos (Nat.not_le.mp (of_decide_eq_false hfits)),
              feed_refused hready (by rw [h.codec]; exact hfits)]
            refine ⟨{ h with
              queue := rfl
              closed := hclosed.trans (by simp)
              pc := rfl
              buffer := by simp }, ?_⟩
            simpa using hfed
  | flushed =>
      rw [hphase] at hpc hclosed
      simp only [Session.writerNext, hphase]
      refine ⟨[.exit], ?_⟩
      have hrun : run step w [.exit] = { w with pc := .exited, queue := [] } := by
        simp [run, List.foldl, step, hpc]
      rw [hrun]
      refine ⟨{ h with
        queue := rfl
        closed := by simp [Chan.close]
        pc := rfl
        buffer := by simp }, ?_⟩
      simp
  | exited =>
      simp only [Session.writerNext, hphase]
      exact ⟨[], h, by simp⟩

end Follows

end NetMux
