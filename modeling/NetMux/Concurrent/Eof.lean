import NetMux.Concurrent.Polling
import NetMux.Lib.Interleave

/-!
# The end of a stream, seen by `poll_read`

`poll_read` drains the buffer, and when there was nothing to drain loads
`read_open`; a closed read half then means the end of the stream.  Drain and
load are two steps, and the session's reader works on the same stream between
them.  When it delivers bytes and the `FIN` in that window, `poll_read`
reports the end while the bytes are still in the buffer.

`Feed` is the stream with one reader of its handle, the session's reader
handling one frame after the other, resets by the user and a shutdown of the
session.  The end is reported soundly in every run in which the reader does
not close the read half in that window over a buffer that is not empty.
-/

namespace NetMux

open Lib.Run Lib.Wakeup
open Lib.Interleave (mem_set_self mem_set_of_ne forall_set forall_concat)

/-! ## The session's reader -/

/-- A step of the session's reader on the stream: an instruction, or one of
the two loads of `can_recv`. -/
inductive ReaderStep where
  | run (p : Prim)
  | checkOpen
  | checkReset
  deriving DecidableEq, Repr

namespace ReaderStep

/-- The instructions of a call. -/
def call (n : Notify) : List ReaderStep := n.program.map run

/-- What the reader does with a frame that has found its stream, in
`dispatch` and `handle_data`. -/
def handle : Frame → List ReaderStep
  | .data _ flags payload =>
      (if flags.contains Flags.ack then call .markAcked else []) ++
      (if payload.isEmpty then []
        else [checkOpen, checkReset] ++ call (.pushData payload)) ++
      (if flags.contains Flags.fin then call .remoteFin else []) ++
      (if flags.contains Flags.rst then call .remoteReset else [])
  | .windowUpdate _ _ delta => call (.grant delta)
  | _ => []

/-- Bytes are pushed only after a look at the read half, and the reader itself
does not close it in between; `local_reset` is the last thing it does.  The
flag says whether the look was taken. -/
def guarded : Bool → List ReaderStep → Bool
  | _, [] => true
  | _, checkOpen :: rest => guarded true rest
  | seen, checkReset :: rest => seen && guarded seen rest
  | seen, run (.push _) :: rest => seen && guarded seen rest
  | _, run .clearRead :: rest => guarded false rest
  | _, run .swapReset :: rest => rest.isEmpty
  | seen, run _ :: rest => guarded seen rest

end ReaderStep

/-- The bytes an instruction pushes. -/
def Prim.pushes : Prim → Bytes
  | push payload => payload
  | _ => []

/-- The bytes a call of `poll_read` has taken and not yet returned. -/
def ReadPc.held : ReadPc → Bytes
  | consume bytes => bytes
  | _ => []

/-- The call has found nothing to drain and looks at the read half next. -/
def ReadPc.atOpenCheck : ReadPc → Bool
  | openCheck _ _ => true
  | _ => false

/-- The call has returned. -/
def ReadPc.isDone : ReadPc → Bool
  | done _ => true
  | _ => false

/-! ## The system -/

/-- A stream, a call of `poll_read` on it, the rest of the frame that the
session's reader has in hand, and the calls of other tasks.  All bytes pushed
and returned are recorded. -/
structure Feed where
  live : Live
  read : ReadPc
  reader : List ReaderStep
  /-- The reader has met a protocol error and handles no further frame. -/
  stopped : Bool
  others : List Notifier
  /-- The session is shutting down. -/
  closing : Bool
  pushed : Bytes
  returned : Bytes

namespace Feed

/-- What can happen. -/
inductive Turn where
  | startRead (remaining : Nat)
  | read
  /-- The reader takes the next frame. -/
  | frame (f : Frame)
  | reader (spurious : Bool)
  /-- The user resets the stream. -/
  | reset
  /-- The session begins to shut down. -/
  | shutdown
  | other (k : Nat) (spurious : Bool)
  deriving DecidableEq, Repr

def new (id : StreamId) (origin : Origin) (config : Config) : Feed where
  live := .new (StreamInner.new id origin config)
  read := .idle
  reader := []
  stopped := false
  others := []
  closing := false
  pushed := []
  returned := []

/-- `can_recv` said no: reset the stream and stop. -/
def refuse (x : Feed) : Feed :=
  { x with reader := ReaderStep.call .localReset, stopped := true }

/-- One instruction of the reader. -/
def exec (x : Feed) (spurious : Bool) (p : Prim) (rest : List ReaderStep) :
    Feed :=
  { x with
    live := (p.exec spurious x.live).1
    reader := (p.exec spurious x.live).2.1.map .run ++ rest
    pushed := x.pushed ++ p.pushes }

/-- The next step of the session's reader. -/
def readerNext (x : Feed) (spurious : Bool) : Feed :=
  match x.reader with
  | [] => x
  | .checkOpen :: rest =>
      if x.live.inner.state.readOpen then { x with reader := rest }
      else x.refuse
  | .checkReset :: rest =>
      if x.live.inner.state.reset then x.refuse else { x with reader := rest }
  | .run p :: rest => x.exec spurious p rest

def step (x : Feed) : Turn → Feed
  | .startRead remaining =>
      match x.read with
      | .idle | .done _ => { x with read := .start remaining }
      | _ => x
  | .read =>
      { x with
        live := (x.live.readNext x.read).1
        read := (x.live.readNext x.read).2
        returned := x.returned ++ x.read.held }
  | .frame f =>
      if x.reader.isEmpty && !x.stopped then
        { x with reader := ReaderStep.handle f }
      else x
  | .reader spurious => x.readerNext spurious
  | .reset => { x with others := x.others ++ [.start .localReset] }
  | .shutdown =>
      { x with closing := true, others := x.others ++ [.start .forceClose] }
  | .other k spurious =>
      match x.others[k]? with
      | none => x
      | some n =>
          { x with
            live := (n.next spurious x.live).1
            others := x.others.set k (n.next spurious x.live).2 }

/-- The stream after some turns. -/
def after (id : StreamId) (origin : Origin) (config : Config)
    (turns : List Turn) : Feed :=
  run step (new id origin config) turns

/-- The next step of `poll_read` returns having filled no byte. -/
def ReturnsEof (x : Feed) : Prop :=
  x.read.isDone = false ∧ (x.step .read).read = .done (.ready (.ok []))

/-- The reader closes the read half of a stream that holds bytes, between the
drain of a call of `poll_read` that found none and its load of
`read_open`. -/
def truncates (x : Feed) : Turn → Bool
  | .reader _ =>
      x.reader.head? == some (.run .clearRead) && x.read.atOpenCheck &&
        !x.live.inner.recv.isEmpty && !x.live.inner.state.reset
  | _ => false

/-- The stream is reset or the session shuts down. -/
def Over (x : Feed) : Prop := x.live.up .reset = true ∨ x.closing = true

end Feed

/-! ## What a step of the reader does -/

namespace Prim

variable (p : Prim) (spurious : Bool) (l : Live)

theorem exec_contents :
    (p.exec spurious l).1.inner.recv.contents =
      l.inner.recv.contents ++ p.pushes := by
  cases p with
  | push payload => exact RecvBuffer.contents_push _ payload
  | addCredit delta cur =>
      simp only [exec, pushes, List.append_nil]
      split <;> rfl
  | swapReset =>
      simp only [exec, pushes, List.append_nil]
      split <;> rfl
  | sendRst =>
      simp only [exec, pushes, List.append_nil]
      split <;> rfl
  | _ => exact (List.append_nil _).symm

/-- What takes the place of an instruction pushes nothing. -/
theorem exec_more_pushes :
    ∀ p' ∈ (p.exec spurious l).2.1, p'.pushes = [] := by
  cases p with
  | loadCredit delta => simp [exec, pushes]
  | addCredit delta cur =>
      simp only [exec]
      split <;> simp [pushes]
  | swapReset =>
      simp only [exec]
      split <;> simp [resetRest, closeWindow, pushes]
  | sendRst =>
      simp only [exec]
      split <;> simp
  | _ => simp [exec]

/-- One instruction closes the read half. -/
theorem exec_readShut (h : (p.exec spurious l).1.up .readShut = true) :
    l.up .readShut = true ∨ p = .clearRead := by
  refine (p.exec_up spurious l h).imp_right fun hraised => ?_
  rcases p.exec_raises spurious l hraised with hsig | ⟨-, hs, -⟩
  · cases p <;> simp_all [signal]
  · cases hs

theorem exec_swapReset :
    (swapReset.exec spurious l).1.up .reset = true := by
  simp only [exec]
  split
  · assumption
  · rfl

end Prim

namespace ReaderStep

variable {p : Prim} {rest : List ReaderStep} {seen : Bool}

/-- Every frame is handled so. -/
theorem guarded_handle (f : Frame) : guarded false (handle f) = true := by
  cases f with
  | data id flags payload =>
      simp only [handle, call, Notify.program]
      -- each of the four parts is there or not
      split <;> split <;> split <;> split <;>
        simp_all [guarded, Prim.closeWindow]
  | windowUpdate id flags delta =>
      simp only [handle, call, Notify.program]
      split <;> rfl
  | _ => rfl

theorem seen_of_pushes (h : guarded seen (run p :: rest) = true)
    (hp : p.pushes ≠ []) : seen = true := by
  cases p with
  | push payload => exact (Bool.and_eq_true_iff.mp h).1
  | _ => exact absurd rfl hp

/-- What an instruction leaves to do is guarded when it was, under the same
look at the read half unless the instruction has closed it. -/
theorem guarded_exec (spurious : Bool) (l : Live)
    (h : guarded seen (run p :: rest) = true) :
    ∃ seen', guarded seen' ((p.exec spurious l).2.1.map run ++ rest) = true ∧
      (seen' = true → seen = true ∧ p ≠ .clearRead) := by
  cases p with
  | push payload => exact ⟨seen, (Bool.and_eq_true_iff.mp h).2, by simp⟩
  | clearRead => exact ⟨false, h, by simp⟩
  | addCredit delta cur =>
      refine ⟨seen, ?_, by simp⟩
      simp only [Prim.exec]
      split <;> exact h
  | swapReset =>
      obtain rfl := List.isEmpty_iff.mp h
      refine ⟨false, ?_, by simp⟩
      simp only [Prim.exec]
      split <;> rfl
  | sendRst =>
      refine ⟨seen, ?_, by simp⟩
      simp only [Prim.exec]
      split <;> exact h
  | _ => exact ⟨seen, h, by simp⟩

end ReaderStep

/-! ## What a step of `poll_read` does -/

/-- The call has nothing in hand, does not look at the read half next and has
not returned bytes or the end. -/
def ReadPc.plain : ReadPc → Bool
  | consume _ | openCheck _ _ | done (.ready (.ok _)) => false
  | _ => true

theorem ReadPc.plain_spec {pc : ReadPc} (h : pc.plain = true) :
    pc.held = [] ∧ pc ≠ .consume [] ∧ pc.atOpenCheck = false := by
  cases pc <;> simp_all [plain, held, atOpenCheck]

namespace Live

/-- The steps of `poll_read` by what they do to the bytes. -/
inductive ReadStep (l : Live) : ReadPc → Live × ReadPc → Prop where
  | takes {l' : Live} {bytes : Bytes} (remaining : ℕ+) (pass : Nat)
      (some : bytes ≠ [])
      (left : bytes ++ l'.inner.recv.contents = l.inner.recv.contents) :
      ReadStep l (.drain remaining pass) (l', .consume bytes)
  | finds {l' : Live} (remaining : ℕ+) (pass : Nat)
      (before : l.inner.recv.contents = [])
      (left : l'.inner.recv.contents = []) :
      ReadStep l (.drain remaining pass) (l', .openCheck remaining pass)
  | returns {l' : Live} (bytes : Bytes)
      (left : l'.inner.recv.contents = l.inner.recv.contents) :
      ReadStep l (.consume bytes) (l', .done (.ready (.ok bytes)))
  | ends (remaining : ℕ+) (pass : Nat) (shut : l.up .readShut = true) :
      ReadStep l (.openCheck remaining pass) (l, .done (.ready (.ok [])))
  | stays (result : Poll (Except IoError Bytes)) :
      ReadStep l (.done result) (l, .done result)
  | moves {l' : Live} {pc pc' : ReadPc}
      (left : l'.inner.recv.contents = l.inner.recv.contents)
      (plain : pc'.plain = true) : ReadStep l pc (l', pc')

/-- Bytes go from the buffer into the hands of the call; it takes hold of
some, and goes on to the read half only when there are none. -/
theorem ReadStep.bytes {l : Live} {pc : ReadPc} {next : Live × ReadPc}
    (h : ReadStep l pc next) :
    next.2.held ++ next.1.inner.recv.contents = l.inner.recv.contents ∧
      next.2 ≠ .consume [] ∧
      (next.2.atOpenCheck = true → next.1.inner.recv.contents = []) := by
  cases h with
  | takes remaining pass hsome left =>
      refine ⟨left, ?_, by simp [ReadPc.atOpenCheck]⟩
      rintro ⟨⟩
      exact hsome rfl
  | finds remaining pass before left =>
      exact ⟨left.trans before.symm, by simp, fun _ => left⟩
  | returns bytes left => exact ⟨left, by simp, by simp [ReadPc.atOpenCheck]⟩
  | ends remaining pass shut =>
      exact ⟨rfl, by simp, by simp [ReadPc.atOpenCheck]⟩
  | stays result => exact ⟨rfl, by simp, by simp [ReadPc.atOpenCheck]⟩
  | @moves l' pc pc' left plain =>
      obtain ⟨hheld, hconsume, hat⟩ := ReadPc.plain_spec plain
      refine ⟨?_, hconsume, by simp [hat]⟩
      rw [hheld, List.nil_append, left]

/-- The end is reported at one place. -/
theorem ReadStep.eof {l : Live} {pc : ReadPc} {next : Live × ReadPc}
    (h : ReadStep l pc next) (hnext : next.2 = .done (.ready (.ok [])))
    (hpc : pc.isDone = false) (hheld : pc ≠ .consume []) :
    pc.atOpenCheck = true ∧ l.up .readShut = true := by
  cases h with
  | returns bytes left =>
      cases hnext
      exact absurd rfl hheld
  | ends remaining pass shut => exact ⟨rfl, shut⟩
  | stays result => cases hpc
  | moves left plain =>
      cases hnext
      cases plain
  | _ => cases hnext

variable (l : Live) (pc : ReadPc)

theorem readNext_state : (l.readNext pc).1.inner.state = l.inner.state := by
  cases pc <;> rfl

theorem readNext_step : ReadStep l pc (l.readNext pc) := by
  have hbranch : ∀ {c : Bool} {pc a b : ReadPc}, a.plain = true →
      b.plain = true → ReadStep l pc (l, if c then a else b) := by
    intro c pc a b ha hb
    cases c with
    | true => exact .moves rfl ha
    | false => exact .moves rfl hb
  cases pc with
  | idle => exact .moves rfl rfl
  | resetCheck remaining pass => exact hbranch rfl rfl
  | drain remaining pass =>
      have hfst := RecvBuffer.readInto_fst l.inner.recv remaining
      have hsnd := RecvBuffer.readInto_contents l.inner.recv remaining
      simp only [readNext]
      split
      · rename_i hpos
        refine .takes remaining pass (List.length_pos_iff.mp hpos) ?_
        show _ ++ (l.inner.recv.readInto remaining).2.contents = _
        rw [hfst, hsnd, List.take_append_drop]
      · rename_i hnone
        have hnil : l.inner.recv.contents = [] := by
          have htake := List.length_eq_zero_iff.mp (Nat.eq_zero_of_not_pos hnone)
          rw [hfst, List.take_eq_nil_iff] at htake
          exact htake.resolve_left remaining.ne_zero
        refine .finds remaining pass hnil ?_
        show (l.inner.recv.readInto remaining).2.contents = []
        rw [hsnd, hnil, List.drop_nil]
  | consume bytes => exact .returns bytes rfl
  | openCheck remaining pass =>
      simp only [readNext]
      split
      · rename_i hshut
        exact .ends remaining pass hshut
      · exact .moves rfl rfl
  | register remaining pass => exact .moves rfl rfl
  | emptyRecheck remaining pass => exact hbranch rfl rfl
  | openRecheck remaining pass => exact hbranch rfl rfl
  | resetRecheck remaining pass => exact hbranch rfl rfl
  | done result => exact .stays result

end Live

/-! ## Whole runs -/

namespace Feed

/-- What holds of a run without truncation.  The bytes pushed are those
returned, those in hand and those in the buffer; the reader pushes only while
the read half is open; a call that found nothing to drain finds the read half
closed only over an empty buffer; and the other tasks close it only when the
stream is over. -/
structure Sound (x : Feed) : Prop where
  fifo : x.pushed = x.returned ++ (x.read.held ++ x.live.inner.recv.contents)
  held : x.read ≠ .consume []
  guard : ∃ seen, ReaderStep.guarded seen x.reader = true ∧
    (seen = true → x.live.up .readShut = true → x.Over)
  eof : x.read.atOpenCheck = true → x.live.up .readShut = true →
    x.Over ∨ x.live.inner.recv.contents = []
  quiet : ∀ n ∈ x.others, ∀ p ∈ n.todo, p.pushes = []
  others : ∀ n ∈ x.others, x.Over ∨ n.todo = [.swapReset] ∨ n.todo = []

variable {x : Feed}

theorem sound_new (id : StreamId) (origin : Origin) (config : Config) :
    (new id origin config).Sound where
  fifo := rfl
  held := by simp [new]
  guard := ⟨false, rfl, by simp⟩
  eof := by simp [new, ReadPc.atOpenCheck]
  quiet := by simp [new]
  others := by simp [new]

/-- The stream stays over. -/
theorem Over.exec (h : x.Over) (spurious : Bool) (p : Prim)
    (rest : List ReaderStep) : (x.exec spurious p rest).Over :=
  h.imp_left (p.exec_keeps spurious x.live)

/-- An instruction of the reader. -/
theorem Sound.exec (h : x.Sound) {p : Prim} {rest : List ReaderStep}
    (hreader : x.reader = .run p :: rest) (spurious : Bool)
    (hsafe : x.truncates (.reader spurious) = false) :
    (x.exec spurious p rest).Sound := by
  obtain ⟨seen, hguarded, hopen⟩ := h.guard
  rw [hreader] at hguarded
  refine ⟨?_, h.held, ?_, ?_, h.quiet, ?_⟩
  · show x.pushed ++ p.pushes = x.returned ++ (x.read.held ++
      (p.exec spurious x.live).1.inner.recv.contents)
    rw [h.fifo, p.exec_contents]
    simp only [List.append_assoc]
  · obtain ⟨seen', hguarded', hseen⟩ :=
      ReaderStep.guarded_exec spurious x.live hguarded
    refine ⟨seen', hguarded', fun h' hshut => ?_⟩
    obtain ⟨hseen, hp⟩ := hseen h'
    have hbefore := (p.exec_readShut spurious x.live hshut).resolve_right hp
    exact (hopen hseen hbefore).exec spurious p rest
  · intro hat hshut
    show _ ∨ (p.exec spurious x.live).1.inner.recv.contents = []
    rw [p.exec_contents]
    rcases p.exec_readShut spurious x.live hshut with hbefore | rfl
    · rcases h.eof hat hbefore with hover | hempty
      · exact .inl (hover.exec spurious p rest)
      · by_cases hp : p.pushes = []
        · exact .inr (by rw [hempty, hp, List.append_nil])
        · have hseen := ReaderStep.seen_of_pushes hguarded hp
          exact .inl ((hopen hseen hbefore).exec spurious p rest)
    · -- the `FIN` itself: the buffer is empty or the run would truncate
      have hat' : x.read.atOpenCheck = true := hat
      simp only [truncates, hreader, List.head?_cons, hat', beq_self_eq_true,
        Bool.true_and, Bool.and_eq_false_iff, Bool.not_eq_false'] at hsafe
      rcases hsafe with hempty | hreset
      · rw [RecvBuffer.isEmpty_iff] at hempty
        exact .inr (by rw [hempty]; rfl)
      · exact .inl (Over.exec (.inl hreset) spurious _ rest)
  · exact fun n hn => (h.others n hn).imp_left (·.exec spurious p rest)

/-- A step of the session's reader. -/
theorem Sound.readerNext (h : x.Sound) (spurious : Bool)
    (hsafe : x.truncates (.reader spurious) = false) :
    (x.readerNext spurious).Sound := by
  have hrefuse : x.refuse.Sound := { h with guard := ⟨false, rfl, by simp⟩ }
  obtain ⟨seen, hguarded, hopen⟩ := h.guard
  unfold Feed.readerNext
  split
  · exact h
  · rename_i rest hreader
    rw [hreader] at hguarded
    split
    · rename_i hread
      refine { h with guard := ⟨true, hguarded, fun _ hshut => ?_⟩ }
      simp [Live.up, hread] at hshut
    · exact hrefuse
  · rename_i rest hreader
    rw [hreader] at hguarded
    split
    · exact hrefuse
    · exact { h with
        guard := ⟨seen, (Bool.and_eq_true_iff.mp hguarded).2, hopen⟩ }
  · rename_i p rest hreader
    exact h.exec hreader spurious hsafe

/-- A step of `poll_read`. -/
theorem Sound.read (h : x.Sound) : (x.step .read).Sound := by
  obtain ⟨hbytes, hheld, hat⟩ := (x.live.readNext_step x.read).bytes
  have hstate := x.live.readNext_state x.read
  have hover : x.Over → (x.step .read).Over := by
    refine Or.imp_left fun hreset => ?_
    show (x.live.readNext x.read).1.inner.state.reset = true
    rw [hstate]
    exact hreset
  refine ⟨?_, hheld, ?_, fun h' _ => .inr (hat h'), h.quiet,
    fun n hn => (h.others n hn).imp_left hover⟩
  · show x.pushed = x.returned ++ x.read.held ++
      ((x.live.readNext x.read).2.held ++
        (x.live.readNext x.read).1.inner.recv.contents)
    rw [hbytes, h.fifo, List.append_assoc]
  · obtain ⟨seen, hguarded, hopen⟩ := h.guard
    refine ⟨seen, hguarded, fun hseen hshut => hover (hopen hseen ?_)⟩
    change (!(x.live.readNext x.read).1.inner.state.readOpen) = true at hshut
    rwa [hstate] at hshut

/-- An instruction of another task.  It pushes nothing, and closes the read
half only when the stream is over. -/
theorem Sound.task (h : x.Sound) {n : Notifier} (hn : n ∈ x.others)
    (spurious : Bool) :
    (n.next spurious x.live).1.inner.recv.contents =
        x.live.inner.recv.contents ∧
      ((n.next spurious x.live).1.up .readShut = true →
        x.live.up .readShut = true ∨ x.Over) ∧
      (∀ p ∈ (n.next spurious x.live).2.todo, p.pushes = []) ∧
      ((n.next spurious x.live).1.up .reset = true ∨ x.closing = true ∨
        (n.next spurious x.live).2.todo = []) := by
  have hquiet := h.quiet n hn
  have hothers := h.others n hn
  cases htodo : n.todo with
  | nil =>
      rw [Notifier.next_nil htodo]
      exact ⟨rfl, .inl, hquiet, .inr (.inr htodo)⟩
  | cons p rest =>
      rw [htodo] at hquiet hothers
      rw [Notifier.next_cons htodo]
      refine ⟨?_, fun hshut => ?_, fun p' hp' => ?_, ?_⟩
      · rw [p.exec_contents, hquiet p List.mem_cons_self, List.append_nil]
      · refine (p.exec_readShut spurious x.live hshut).imp_right ?_
        rintro rfl
        rcases hothers with hover | htodo | htodo
        · exact hover
        · cases htodo
        · cases htodo
      · rcases List.mem_append.mp hp' with hp' | hp'
        · exact p.exec_more_pushes spurious x.live p' hp'
        · exact hquiet p' (List.mem_cons_of_mem p hp')
      · rcases hothers with (hreset | hclosing) | htodo | htodo
        · exact .inl (p.exec_keeps spurious x.live hreset)
        · exact .inr (.inl hclosing)
        · cases htodo
          exact .inl (Prim.exec_swapReset spurious x.live)
        · cases htodo

theorem Sound.other (h : x.Sound) {k : Nat} {n : Notifier}
    (hk : x.others[k]? = some n) (spurious : Bool) :
    ({ x with
      live := (n.next spurious x.live).1
      others := x.others.set k (n.next spurious x.live).2 } : Feed).Sound := by
  have hn := List.mem_of_getElem? hk
  obtain ⟨hcontents, hshut, hquiet, hover⟩ := h.task hn spurious
  have hmono : x.Over →
      (n.next spurious x.live).1.up .reset = true ∨ x.closing = true :=
    Or.imp_left (n.next_keeps spurious)
  refine ⟨?_, h.held, ?_, fun hat hup => ?_, forall_set h.quiet hquiet, ?_⟩
  · show x.pushed = x.returned ++ (x.read.held ++
      (n.next spurious x.live).1.inner.recv.contents)
    rw [hcontents, h.fifo]
  · obtain ⟨seen, hguarded, hopen⟩ := h.guard
    refine ⟨seen, hguarded, fun hseen hup => hmono ?_⟩
    exact (hshut hup).elim (hopen hseen) id
  · show _ ∨ (n.next spurious x.live).1.inner.recv.contents = []
    rw [hcontents]
    rcases hshut hup with hbefore | hbefore
    · exact (h.eof hat hbefore).imp_left hmono
    · exact .inl (hmono hbefore)
  · refine forall_set (fun m hm => (h.others m hm).imp_left hmono) ?_
    rcases hover with hreset | hclosing | htodo
    · exact .inl (.inl hreset)
    · exact .inl (.inr hclosing)
    · exact .inr (.inr htodo)

/-- **What one turn keeps.** -/
theorem Sound.step (h : x.Sound) (t : Turn) (hsafe : x.truncates t = false) :
    (x.step t).Sound := by
  cases t with
  | startRead remaining =>
      have hstart : x.read.held = [] →
          ({ x with read := .start remaining } : Feed).Sound := by
        intro hnone
        have hheld : (ReadPc.start remaining).held = [] := by
          unfold ReadPc.start
          split <;> rfl
        refine ⟨?_, ?_, h.guard, ?_, h.quiet, h.others⟩
        · show x.pushed = _
          rw [h.fifo, hnone, hheld]
        · unfold ReadPc.start
          split <;> simp
        · unfold ReadPc.start
          split <;> simp [ReadPc.atOpenCheck]
      simp only [Feed.step]
      split
      · rename_i hidle
        exact hstart (by rw [hidle]; rfl)
      · rename_i hdone
        exact hstart (by rw [hdone]; rfl)
      · exact h
  | read => exact h.read
  | frame f =>
      simp only [Feed.step]
      split
      · exact { h with guard := ⟨false, ReaderStep.guarded_handle f, by simp⟩ }
      · exact h
  | reader spurious => exact h.readerNext spurious hsafe
  | reset =>
      exact { h with
        quiet := forall_concat h.quiet (by
          simp [Notifier.start, Notify.program, Prim.pushes])
        others := forall_concat h.others (.inr (.inl rfl)) }
  | shutdown =>
      have hover : (x.step .shutdown).Over := .inr rfl
      obtain ⟨seen, hguarded, -⟩ := h.guard
      exact ⟨h.fifo, h.held, ⟨seen, hguarded, fun _ _ => hover⟩,
        fun _ _ => .inl hover,
        forall_concat h.quiet (by
          simp [Notifier.start, Notify.program, Prim.closeWindow, Prim.pushes]),
        fun _ _ => .inl hover⟩
  | other k spurious =>
      simp only [Feed.step]
      split
      · exact h
      · rename_i n hk
        exact h.other hk spurious

/-- **The end of a stream is reported soundly** in every run in which the
reader does not close the read half between the drain of a call that found
nothing and its look at the read half, over a buffer that holds bytes by
then: when the call returns no byte, the stream is not reset and the session
not shutting down, the buffer is empty and all bytes pushed have been
returned. -/
theorem eof_sound (id : StreamId) (origin : Origin) (config : Config)
    (turns : List Turn)
    (hsafe : Along step (fun x t => x.truncates t = false)
      (new id origin config) turns)
    (heof : (after id origin config turns).ReturnsEof)
    (hreset : (after id origin config turns).live.inner.state.reset = false)
    (hclosing : (after id origin config turns).closing = false) :
    ((after id origin config turns).step .read).live.inner.recv.contents = [] ∧
      ((after id origin config turns).step .read).returned =
        (after id origin config turns).pushed := by
  have h : (after id origin config turns).Sound :=
    run_invariant step (fun x t hx ht => hx.step t ht) turns _
      (sound_new id origin config) hsafe
  generalize after id origin config turns = x at *
  obtain ⟨hpending, hdone⟩ := heof
  have hover : ¬ x.Over := by
    rintro (hup | hup)
    · cases hreset.symm.trans hup
    · cases hclosing.symm.trans hup
  have hstep := x.live.readNext_step x.read
  obtain ⟨hat, hshut⟩ := hstep.eof hdone hpending h.held
  have hempty := (h.eof hat hshut).resolve_left hover
  obtain ⟨-, hleft⟩ := List.append_eq_nil_iff.mp (hstep.bytes.1.trans hempty)
  refine ⟨hleft, ?_⟩
  show x.returned ++ x.read.held = x.pushed
  rw [h.fifo, hempty, List.append_nil]

/-- A byte and the `FIN` arrive in one frame, one call returns the byte, and
the next stands before its look at the read half. -/
def byteThenEof : List Turn :=
  [.frame (.data 1 Flags.fin [7]), .reader false, .reader false, .reader false,
    .reader false, .reader false, .reader false, .startRead 4, .read, .read,
    .read, .startRead 4, .read, .read]

theorem eof_sound_byteThenEof :
    ((after 1 .remotely Config.default byteThenEof).step .read).returned =
      [7] :=
  (eof_sound 1 .remotely Config.default byteThenEof (by decide +kernel)
    ⟨rfl, rfl⟩ rfl rfl).2

/-- The same frame arrives between the drain of a call and its look at the
read half. -/
def frameBetween : List Turn :=
  [.startRead 4, .read, .read, .frame (.data 1 Flags.fin [7]), .reader false,
    .reader false, .reader false, .reader false, .reader false, .reader false]

/-- **The end is reported before the last byte.** -/
theorem eof_before_byte :
    (after 1 .remotely Config.default frameBetween).ReturnsEof ∧
      (after 1 .remotely Config.default frameBetween).live.inner.state.reset =
        false ∧
      (after 1 .remotely Config.default frameBetween).closing = false ∧
      (after 1 .remotely Config.default frameBetween).pushed = [7] ∧
      ((after 1 .remotely Config.default frameBetween).step .read).returned =
        [] ∧
      ((after 1 .remotely Config.default frameBetween).step
        .read).live.inner.recv.contents = [7] :=
  ⟨⟨rfl, rfl⟩, rfl, rfl, rfl, rfl, rfl⟩

end Feed

end NetMux
