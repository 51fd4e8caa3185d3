import Mathlib.Data.List.Basic
import NetMux.Lib.Run
import NetMux.Protocol.Frame

/-!
# Per-stream inbound buffer

A FIFO queue of byte chunks.  The reader task pushes chunks at the back and
`poll_read` drains bytes from the front; how the bytes are cut into chunks is
invisible in the contents.

`readInto` is a recursion on the chunks.  The `while` loop of the source, with
its two cursors and its two places that drop a chunk, is `Drain.loop`; the two
agree once the loop is given a pass for each chunk and one to leave
(`loop_eq`).
-/

namespace NetMux

open Lib.Run

/-- FIFO queue of chunks waiting to be consumed by the reader. -/
structure RecvBuffer where
  queue : List Bytes
  deriving DecidableEq, Repr

namespace RecvBuffer

def new : RecvBuffer := ⟨[]⟩

def push (b : RecvBuffer) (chunk : Bytes) : RecvBuffer :=
  if chunk.isEmpty then b else ⟨b.queue ++ [chunk]⟩

def isEmpty (b : RecvBuffer) : Bool := b.queue.all List.isEmpty

/-- The drain loop on the chunks still queued, with `remaining` bytes of
output capacity left.  In the last branch the chunk was longer than the
capacity, so the loop condition fails next. -/
def readLoop (remaining : Nat) : List Bytes → Bytes × List Bytes
  | [] => ([], [])
  | front :: rest =>
      if remaining = 0 then ([], front :: rest)
      else if front.isEmpty then readLoop remaining rest
      else
        let n := min remaining front.length
        if (front.drop n).isEmpty then
          let (more, queue) := readLoop (remaining - n) rest
          (front.take n ++ more, queue)
        else (front.take n, front.drop n :: rest)

/-- Drain bytes into an output buffer with `remaining` bytes of capacity:
the bytes copied, and the buffer afterwards. -/
def readInto (b : RecvBuffer) (remaining : Nat) : Bytes × RecvBuffer :=
  let (out, queue) := readLoop remaining b.queue
  (out, ⟨queue⟩)

/-- The unread bytes, in order. -/
def contents (b : RecvBuffer) : Bytes := b.queue.flatten

@[simp] theorem contents_push (b : RecvBuffer) (chunk : Bytes) :
    (b.push chunk).contents = b.contents ++ chunk := by
  unfold push
  split
  · rename_i h
    rw [List.isEmpty_iff.mp h, List.append_nil]
  · simp [contents]

/-! ### The four cases of the drain -/

theorem readLoop_zero (queue : List Bytes) : readLoop 0 queue = ([], queue) := by
  cases queue with
  | nil => rfl
  | cons front rest => simp [readLoop]

theorem readLoop_skip {remaining : Nat} (hpos : remaining ≠ 0)
    (rest : List Bytes) :
    readLoop remaining ([] :: rest) = readLoop remaining rest := by
  simp [readLoop, hpos]

/-- A chunk that fits is taken whole. -/
theorem readLoop_whole {remaining : Nat} {front : Bytes} (hfront : front ≠ [])
    (hle : front.length ≤ remaining) (rest : List Bytes) :
    readLoop remaining (front :: rest) =
      (front ++ (readLoop (remaining - front.length) rest).1,
        (readLoop (remaining - front.length) rest).2) := by
  have hlen := List.length_pos_iff.mpr hfront
  have hpos : remaining ≠ 0 := by omega
  simp [readLoop, hpos, hfront, Nat.min_eq_right hle]

/-- A chunk that does not fit is cut. -/
theorem readLoop_part {remaining : Nat} {front : Bytes} (hpos : remaining ≠ 0)
    (hlt : remaining < front.length) (rest : List Bytes) :
    readLoop remaining (front :: rest) =
      (front.take remaining, front.drop remaining :: rest) := by
  have hfront : front ≠ [] := List.length_pos_iff.mp (Nat.zero_lt_of_lt hlt)
  have htail : ¬ front.length ≤ remaining := Nat.not_le.mpr hlt
  simp [readLoop, hpos, hfront, Nat.min_eq_left (Nat.le_of_lt hlt), htail]

private theorem readLoop_spec (queue : List Bytes) : ∀ remaining : Nat,
    (readLoop remaining queue).1 = queue.flatten.take remaining ∧
      (readLoop remaining queue).2.flatten = queue.flatten.drop remaining := by
  induction queue with
  | nil => intro remaining; simp [readLoop]
  | cons front rest ih =>
      intro remaining
      by_cases hpos : remaining = 0
      · simp [hpos, readLoop_zero]
      · by_cases hfront : front = []
        · rw [hfront, readLoop_skip hpos, List.flatten_cons, List.nil_append]
          exact ih remaining
        · rw [List.flatten_cons, List.take_append, List.drop_append]
          rcases Nat.lt_or_ge remaining front.length with hlt | hle
          · rw [readLoop_part hpos hlt, Nat.sub_eq_zero_of_le (Nat.le_of_lt hlt)]
            simp
          · obtain ⟨htake, hleft⟩ := ih (remaining - front.length)
            rw [readLoop_whole hfront hle, List.take_of_length_le hle,
              List.drop_of_length_le hle, List.nil_append]
            exact ⟨congrArg (front ++ ·) htake, hleft⟩

/-- **A read returns the front of the contents**, as much as fits. -/
theorem readInto_fst (b : RecvBuffer) (remaining : Nat) :
    (b.readInto remaining).1 = b.contents.take remaining :=
  (readLoop_spec b.queue remaining).1

/-- **A read leaves the rest of the contents.** -/
theorem readInto_contents (b : RecvBuffer) (remaining : Nat) :
    (b.readInto remaining).2.contents = b.contents.drop remaining :=
  (readLoop_spec b.queue remaining).2

theorem isEmpty_iff (b : RecvBuffer) : b.isEmpty = true ↔ b.contents = [] := by
  simp [isEmpty, contents]

/-! ## The loop of `read_into` -/

/-- The variables of the loop: the chunks, the capacity left in the output
buffer, the bytes put there, and their count. -/
structure Drain where
  queue : List Bytes
  remaining : Nat
  out : Bytes
  total : Nat
  deriving DecidableEq, Repr

namespace Drain

/-- One pass of the loop; `none` means that it is left. -/
def pass (d : Drain) : Option Drain :=
  if d.remaining = 0 then none
  else
    match d.queue with
    | [] => none
    | front :: rest =>
        if front.isEmpty then some { d with queue := rest }
        else
          let n := min d.remaining front.length
          let front' := front.drop n
          some
            { queue := if front'.isEmpty then rest else front' :: rest
              remaining := d.remaining - n
              out := d.out ++ front.take n
              total := d.total + n }

/-- The loop, given `fuel` passes; `none` means that it wants more. -/
def loop : Nat → Drain → Option Drain
  | 0, _ => none
  | fuel + 1, d =>
      match d.pass with
      | none => some d
      | some d' => loop fuel d'

theorem loop_left {d : Drain} (h : d.pass = none) (fuel : Nat) :
    loop (fuel + 1) d = some d := by
  simp only [loop, h]

theorem loop_pass {d d' : Drain} (h : d.pass = some d') (fuel : Nat) :
    loop (fuel + 1) d = loop fuel d' := by
  simp only [loop, h]

theorem pass_whole {front : Bytes} {rest : List Bytes} {remaining total : Nat}
    {out : Bytes} (hfront : front ≠ []) (hle : front.length ≤ remaining) :
    pass ⟨front :: rest, remaining, out, total⟩ =
      some ⟨rest, remaining - front.length, out ++ front,
        total + front.length⟩ := by
  have hlen := List.length_pos_iff.mpr hfront
  have hpos : remaining ≠ 0 := by omega
  simp [pass, hpos, hfront, Nat.min_eq_right hle]

theorem pass_part {front : Bytes} {rest : List Bytes} {remaining total : Nat}
    {out : Bytes} (hpos : remaining ≠ 0) (hlt : remaining < front.length) :
    pass ⟨front :: rest, remaining, out, total⟩ =
      some ⟨front.drop remaining :: rest, 0, out ++ front.take remaining,
        total + remaining⟩ := by
  have hfront : front ≠ [] := List.length_pos_iff.mp (Nat.zero_lt_of_lt hlt)
  have htail : ¬ front.length ≤ remaining := Nat.not_le.mpr hlt
  simp [pass, hpos, hfront, Nat.min_eq_left (Nat.le_of_lt hlt), htail]

/-- **The loop ends, as `readLoop` says**: every pass drops a chunk or uses up
the capacity. -/
theorem loop_eq (queue : List Bytes) : ∀ (fuel remaining total : Nat)
    (out : Bytes), queue.length < fuel →
    loop fuel ⟨queue, remaining, out, total⟩ =
      some
        { queue := (readLoop remaining queue).2
          remaining := remaining - (readLoop remaining queue).1.length
          out := out ++ (readLoop remaining queue).1
          total := total + (readLoop remaining queue).1.length } := by
  induction queue with
  | nil =>
      intro fuel remaining total out hfuel
      obtain ⟨fuel, rfl⟩ := Nat.exists_eq_add_one.mpr hfuel
      rw [loop_left (by simp [pass])]
      simp [readLoop]
  | cons front rest ih =>
      intro fuel remaining total out hfuel
      obtain ⟨fuel, rfl⟩ := Nat.exists_eq_add_one.mpr (Nat.zero_lt_of_lt hfuel)
      have hrest : rest.length < fuel := Nat.lt_of_succ_lt_succ hfuel
      by_cases hpos : remaining = 0
      · rw [hpos, readLoop_zero, loop_left (by simp [pass])]
        simp
      · by_cases hfront : front = []
        · have hpass : pass ⟨front :: rest, remaining, out, total⟩ =
              some ⟨rest, remaining, out, total⟩ := by
            simp [pass, hpos, hfront]
          rw [loop_pass hpass, ih fuel remaining total out hrest, hfront,
            readLoop_skip hpos]
        · rcases Nat.lt_or_ge remaining front.length with hlt | hle
          · -- The chunk is longer than the capacity, and the loop is left.
            obtain ⟨fuel, rfl⟩ :=
              Nat.exists_eq_add_one.mpr (Nat.zero_lt_of_lt hrest)
            rw [loop_pass (pass_part hpos hlt), loop_left (by simp [pass]),
              readLoop_part hpos hlt, List.length_take,
              Nat.min_eq_left (Nat.le_of_lt hlt), Nat.sub_self]
          · -- The whole chunk is taken, and the loop goes on behind it.
            rw [loop_pass (pass_whole hfront hle), ih fuel _ _ _ hrest,
              readLoop_whole hfront hle, List.length_append, List.append_assoc,
              Nat.add_assoc, Nat.sub_sub]

end Drain

/-! ## Calls in any order -/

/-- A read drops the chunks it has emptied. -/
theorem readLoop_ne_nil (queue : List Bytes) : ∀ remaining : Nat,
    (∀ chunk ∈ queue, chunk ≠ []) →
    ∀ chunk ∈ (readLoop remaining queue).2, chunk ≠ [] := by
  induction queue with
  | nil => simp [readLoop]
  | cons front rest ih =>
      intro remaining h
      obtain ⟨hfront, hrest⟩ := List.forall_mem_cons.mp h
      by_cases hpos : remaining = 0
      · rw [hpos, readLoop_zero]
        exact h
      · rcases Nat.lt_or_ge remaining front.length with hlt | hle
        · rw [readLoop_part hpos hlt]
          refine List.forall_mem_cons.mpr ⟨?_, hrest⟩
          intro hnil
          exact Nat.not_le.mpr hlt (List.drop_eq_nil_iff.mp hnil)
        · rw [readLoop_whole hfront hle]
          exact ih _ hrest

/-- A call on the buffer. -/
inductive Call where
  | push (chunk : Bytes)
  | readInto (capacity : Nat)
  deriving DecidableEq, Repr

/-- The bytes that a call adds. -/
def Call.added : Call → Bytes
  | .push chunk => chunk
  | .readInto _ => []

/-- A buffer and the bytes that were read from it. -/
structure Tap where
  buffer : RecvBuffer
  taken : Bytes
  deriving DecidableEq, Repr

def Tap.call (t : Tap) : Call → Tap
  | .push chunk => { t with buffer := t.buffer.push chunk }
  | .readInto capacity =>
      { buffer := (t.buffer.readInto capacity).2
        taken := t.taken ++ (t.buffer.readInto capacity).1 }

/-- The buffer after these calls. -/
def Tap.after (calls : List Call) : Tap := run Tap.call ⟨.new, []⟩ calls

/-- A call moves bytes from the end that is pushed to the end that is read. -/
theorem Tap.call_bytes (t : Tap) (call : Call) :
    (t.call call).taken ++ (t.call call).buffer.contents =
      t.taken ++ t.buffer.contents ++ call.added := by
  cases call with
  | push chunk => simp [Tap.call, Call.added]
  | readInto capacity =>
      simp only [Tap.call, Call.added, readInto_fst, readInto_contents,
        List.append_nil, List.append_assoc, List.take_append_drop]

/-- What was read and what is queued is what was pushed. -/
theorem Tap.run_bytes (calls : List Call) : ∀ t : Tap,
    (run Tap.call t calls).taken ++ (run Tap.call t calls).buffer.contents =
      t.taken ++ t.buffer.contents ++ calls.flatMap Call.added := by
  induction calls with
  | nil => intro t; simp
  | cons call calls ih =>
      intro t
      rw [run_cons, ih, call_bytes, List.flatMap_cons, ← List.append_assoc]

theorem Tap.call_ne_nil {t : Tap} (call : Call)
    (h : ∀ chunk ∈ t.buffer.queue, chunk ≠ []) :
    ∀ chunk ∈ (t.call call).buffer.queue, chunk ≠ [] := by
  cases call with
  | push chunk =>
      simp only [Tap.call, RecvBuffer.push]
      split_ifs with hempty
      · exact h
      · rw [List.forall_mem_append]
        refine ⟨h, List.forall_mem_singleton.mpr ?_⟩
        exact fun hnil => hempty (List.isEmpty_iff.mpr hnil)
  | readInto capacity => exact readLoop_ne_nil _ capacity h

/-- **The buffer is a byte queue, however the bytes were cut.**  After any
calls, what was read and then what is queued is what was pushed; no chunk in
the queue is empty; the loop of the next `read_into` ends with as many bytes
as fit, the first of the queue, and returns their number; and `is_empty` tells
whether a read with room for a byte returns none. -/
theorem read_fifo (calls : List Call) :
    (Tap.after calls).taken ++ (Tap.after calls).buffer.contents =
        calls.flatMap Call.added ∧
      (∀ chunk ∈ (Tap.after calls).buffer.queue, chunk ≠ []) ∧
      (∀ capacity, ∃ d, (∀ fuel, (Tap.after calls).buffer.queue.length < fuel →
          Drain.loop fuel
            ⟨(Tap.after calls).buffer.queue, capacity, [], 0⟩ = some d) ∧
        (d.out, ⟨d.queue⟩) = (Tap.after calls).buffer.readInto capacity ∧
        d.out = (Tap.after calls).buffer.contents.take capacity ∧
        d.out.length = d.total ∧
        d.total = min capacity (Tap.after calls).buffer.contents.length) ∧
      ∀ capacity, capacity ≠ 0 →
        ((Tap.after calls).buffer.isEmpty = true ↔
          ((Tap.after calls).buffer.readInto capacity).1.length = 0) := by
  refine ⟨Tap.run_bytes calls _, ?_, fun capacity => ?_, fun capacity hpos => ?_⟩
  · exact run_invariant_all Tap.call
      (I := fun t => ∀ chunk ∈ t.buffer.queue, chunk ≠ [])
      (fun _ call h => Tap.call_ne_nil call h) calls _ (by simp [RecvBuffer.new])
  · have hout := readInto_fst (Tap.after calls).buffer capacity
    refine ⟨_, fun fuel hfuel => Drain.loop_eq _ fuel capacity 0 [] hfuel, ?_⟩
    have hlen := congrArg List.length hout
    rw [List.length_take] at hlen
    rw [List.nil_append, Nat.zero_add]
    exact ⟨rfl, hout, rfl, hlen⟩
  · rw [isEmpty_iff, readInto_fst, List.length_take]
    constructor
    · intro hnil
      rw [hnil, List.length_nil, Nat.min_zero]
    · intro hlen
      exact List.eq_nil_of_length_eq_zero (by omega)

end RecvBuffer

end NetMux
