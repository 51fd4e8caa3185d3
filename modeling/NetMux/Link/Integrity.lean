import Mathlib.Algebra.Order.BigOperators.Group.List
import Mathlib.Algebra.Order.Group.Nat
import NetMux.Link.Dispatch

/-!
# What the two endpoints guarantee in every reachable state

The invariant of the pipes, read off the sessions themselves.  Two results
hold in every state that any interleaving of user calls, timers and
background tasks can reach:

* `stream_integrity`: what was read on one side is the front of what was
  written on the other, and nothing is missing while both streams are held;
* `credit_conserved`: the send credit of a direction, the bytes under way,
  the bytes not yet read, the credit not yet returned and the credit under
  way back add up to the sender's initial window.
-/

namespace NetMux

open Lib Lib.Run

/-! ## What is under way -/

namespace Frame

/-- The payload bytes of a `Data` frame of stream `i`. -/
def dataFor (i : StreamId) : Frame → Bytes
  | .data id _ payload => if id = i then payload else []
  | _ => []

/-- The delta of a `WindowUpdate` frame of stream `i`. -/
def creditFor (i : StreamId) : Frame → Nat
  | .windowUpdate id _ delta => if id = i then delta.toNat else 0
  | _ => 0

/-- A frame of ours carries bytes only in its message. -/
theorem Ours.dataFor {limit : Nat} {closing : Bool} {f : Frame}
    (h : Ours limit closing f) (i : StreamId) :
    f.dataFor i = Msg.payloads (f.msg? i).toList := by
  cases h with
  | msg j m hm =>
      rw [Frame.msg?_frame]
      split
      · rename_i hj
        subst hj
        cases m <;>
          simp [Msg.frame, Frame.dataFor, Frame.syn, Frame.ack, Frame.fin,
            Frame.rst, Frame.mkWindowUpdate, Msg.payload]
      · rename_i hj
        cases m <;>
          simp [Msg.frame, Frame.dataFor, Frame.syn, Frame.ack, Frame.fin,
            Frame.rst, Frame.mkWindowUpdate, hj]
  | ping nonce => rfl
  | pong nonce => rfl
  | goAway code h => rfl

theorem Ours.creditFor {limit : Nat} {closing : Bool} {f : Frame}
    (h : Ours limit closing f) (i : StreamId) :
    f.creditFor i = Msg.grants (f.msg? i).toList := by
  cases h with
  | msg j m hm =>
      rw [Frame.msg?_frame]
      split
      · rename_i hj
        subst hj
        cases m <;>
          simp [Msg.frame, Frame.creditFor, Frame.syn, Frame.ack, Frame.fin,
            Frame.rst, Frame.mkWindowUpdate, Msg.granted]
      · rename_i hj
        cases m <;>
          simp [Msg.frame, Frame.creditFor, Frame.syn, Frame.ack, Frame.fin,
            Frame.rst, Frame.mkWindowUpdate, hj]
  | ping nonce => rfl
  | pong nonce => rfl
  | goAway code h => rfl

end Frame

namespace System

/-- The states that some run reaches. -/
def Reachable (cfg : Role → Config) (S : System) : Prop :=
  ∃ as, after cfg as = S

/-- The frames `r` has sent and its peer has not read: those on the wire,
then those in the outbound queue. -/
def underWay (S : System) (r : Role) : List Frame :=
  S.wire r ++ (S.ends r).out.queue

/-- The payload bytes of stream `i` under way from `r`. -/
def dataUnderWay (S : System) (r : Role) (i : StreamId) : Bytes :=
  (S.underWay r).flatMap (Frame.dataFor i)

/-- The credit for stream `i` under way from `r`. -/
def creditUnderWay (S : System) (r : Role) (i : StreamId) : Nat :=
  ((S.underWay r).map (Frame.creditFor i)).sum

variable {cfg : Role → Config} {S : System} {r : Role}

theorem Reachable.good (h : Reachable cfg S) : Good cfg S := by
  obtain ⟨as, rfl⟩ := h
  exact good_after cfg as

/-- Everything under way was sent by this code. -/
theorem Good.ours (h : Good cfg S) {f : Frame} (hf : f ∈ S.underWay r) :
    ∃ limit closing, Frame.Ours limit closing f := by
  rcases List.mem_append.mp hf with hf | hf
  · exact ⟨_, _, h.wire r f hf⟩
  · exact ⟨_, _, (h.wf r).out f hf⟩

private theorem payloads_msgs {fs : List Frame}
    (h : ∀ f ∈ fs, ∃ limit closing, Frame.Ours limit closing f) (i : StreamId) :
    Msg.payloads (msgs i fs) = fs.flatMap (Frame.dataFor i) := by
  induction fs with
  | nil => rfl
  | cons f fs ih =>
      obtain ⟨limit, closing, hf⟩ := h f (List.mem_cons_self ..)
      rw [msgs_cons, Msg.payloads_append, List.flatMap_cons, hf.dataFor i,
        ih fun g hg => h g (List.mem_cons_of_mem _ hg)]

private theorem grants_msgs {fs : List Frame}
    (h : ∀ f ∈ fs, ∃ limit closing, Frame.Ours limit closing f) (i : StreamId) :
    Msg.grants (msgs i fs) = (fs.map (Frame.creditFor i)).sum := by
  induction fs with
  | nil => rfl
  | cons f fs ih =>
      obtain ⟨limit, closing, hf⟩ := h f (List.mem_cons_self ..)
      rw [msgs_cons, Msg.grants_append, List.map_cons, List.sum_cons,
        hf.creditFor i, ih fun g hg => h g (List.mem_cons_of_mem _ hg)]

theorem Good.payloads_chan (h : Good cfg S) (r : Role) (i : StreamId) :
    Msg.payloads ((S.pipe i).chan r) = S.dataUnderWay r i :=
  payloads_msgs (fun _ hf => h.ours hf) i

theorem Good.grants_chan (h : Good cfg S) (r : Role) (i : StreamId) :
    Msg.grants ((S.pipe i).chan r) = S.creditUnderWay r i :=
  grants_msgs (fun _ hf => h.ours hf) i

/-- A message of a pipe is a frame under way. -/
theorem Good.frame_mem (h : Good cfg S) {i : StreamId} {m : Msg}
    (hm : m ∈ (S.pipe i).chan r) : m.frame i ∈ S.underWay r := by
  obtain ⟨f, hf, hmsg⟩ := List.mem_filterMap.mp hm
  obtain ⟨limit, closing, hours⟩ := h.ours hf
  cases hours with
  | msg j m' hlen =>
      rw [Frame.msg?_frame] at hmsg
      split at hmsg
      · rename_i hj
        cases hmsg
        rw [← hj]
        exact hf
      · cases hmsg
  | ping nonce => cases hmsg
  | pong nonce => cases hmsg
  | goAway code hcl => cases hmsg

end System

/-! ## Streams of a good system -/

/-- Someone holds the stream, and it was not reset. -/
def Cell.Held (c : Cell) : Prop :=
  c.live = true ∧ c.inner.state.reset = false

instance (c : Cell) : Decidable c.Held := inferInstanceAs (Decidable (_ ∧ _))

namespace System

variable {cfg : Role → Config} {S : System} {r : Role}

/-- The cell of a pipe's end is the stream with that id. -/
theorem Good.cell_of_mem (h : Good cfg S) {c : Cell}
    (hc : c ∈ (S.ends r).streams) : ((S.pipe c.id).ends r).cell = some c := by
  obtain ⟨n, hn⟩ := List.mem_iff_getElem?.mp hc
  exact h.cell hn

theorem cell_none {i : StreamId} (hne : ∀ c ∈ (S.ends r).streams, c.id ≠ i) :
    ((S.pipe i).ends r).cell = none :=
  Keyed.lookup_none.mpr hne

/-- While its session runs, a held stream is registered. -/
theorem Good.registered (h : Good cfg S) {c : Cell}
    (hc : c ∈ (S.ends r).streams) (hheld : c.Held)
    (hcl : (S.ends r).isClosing = false) :
    ((S.pipe c.id).ends r).registered = true :=
  ((h.pipes c.id).sound.ends r).registered_of_live (h.cell_of_mem hc) hcl
    hheld.1 hheld.2

theorem Good.listening (h : Good cfg S) {c : Cell}
    (hc : c ∈ (S.ends r).streams) (hheld : c.Held)
    (hcl : (S.ends r).isClosing = false) :
    ((S.pipe c.id).ends r).listening = true :=
  ((h.pipes c.id).sound.ends r).listening_of_registered hcl
    (h.registered hc hheld hcl)

/-! ## Integrity -/

/-- What the peer's stream has read was written here. -/
theorem Good.readLog_prefix (h : Good cfg S)
    (hfail : (S.ends r).encodeFailed = false) {c d : Cell}
    (hc : c ∈ (S.ends r.peer).streams) (hd : d ∈ (S.ends r).streams)
    (hid : d.id = c.id) : c.readLog <+: d.writeLog := by
  have hdel := (h.pipes c.id).delivery r hfail
  have hfront := hdel.readLog_prefix
  have hcellc := h.cell_of_mem hc
  have hcelld := h.cell_of_mem hd
  rw [hid] at hcelld
  simpa only [End.readLog, End.writeLog, hcellc, hcelld, Option.map_some,
    Option.getD_some] using hfront

/-- Without a stream on this side nothing was read on the other. -/
theorem Good.readLog_nil (h : Good cfg S)
    (hfail : (S.ends r).encodeFailed = false) {c : Cell}
    (hc : c ∈ (S.ends r.peer).streams)
    (hnone : ∀ d ∈ (S.ends r).streams, d.id ≠ c.id) : c.readLog = [] := by
  have hdel := (h.pipes c.id).delivery r hfail
  have hfront := hdel.readLog_prefix
  have hcellc := h.cell_of_mem hc
  simp only [End.readLog, End.writeLog, hcellc, cell_none hnone,
    Option.map_some, Option.getD_some, Option.map_none, Option.getD_none]
    at hfront
  exact List.prefix_nil.mp hfront

/-- While the peer's stream is held and both sessions run, every byte that
was written is read, buffered or under way. -/
theorem Good.complete (h : Good cfg S)
    (hcl : (S.ends r).isClosing = false)
    (hcl' : (S.ends r.peer).isClosing = false)
    (hfail : (S.ends r).encodeFailed = false) {c d : Cell}
    (hc : c ∈ (S.ends r.peer).streams) (hd : d ∈ (S.ends r).streams)
    (hid : d.id = c.id) (hheld : c.Held) :
    c.readLog ++ c.inner.recv.contents ++ S.dataUnderWay r c.id =
      d.writeLog := by
  have hdel := (h.pipes c.id).delivery r hfail
  have hall := hdel.complete (h.listening hc hheld hcl') (h.out_open hcl)
  have hcellc := h.cell_of_mem hc
  have hcelld := h.cell_of_mem hd
  rw [hid] at hcelld
  simpa only [End.readLog, End.writeLog, End.unread, hcellc, hcelld,
    Option.map_some, Option.getD_some, h.payloads_chan] using hall

/-- **End-to-end integrity of every stream, in each direction.**  In every
reachable state in which no writer has failed to encode a frame, the bytes
read from a stream are a prefix of the bytes written to the stream of the
same id on the other side; and while both streams are held and un-reset and
neither session is closing, the bytes read, the bytes buffered and the bytes
under way are together exactly the bytes written. -/
theorem stream_integrity (hS : Reachable cfg S)
    (hfail : ∀ r, (S.ends r).encodeFailed = false) (r : Role) :
    (∀ c ∈ (S.ends r.peer).streams,
      (∀ d ∈ (S.ends r).streams, d.id = c.id → c.readLog <+: d.writeLog) ∧
      ((∀ d ∈ (S.ends r).streams, d.id ≠ c.id) → c.readLog = [])) ∧
    ∀ c ∈ (S.ends r.peer).streams, ∀ d ∈ (S.ends r).streams, d.id = c.id →
      c.Held → d.Held → (S.ends r).isClosing = false →
      (S.ends r.peer).isClosing = false →
        c.readLog ++ c.inner.recv.contents ++ S.dataUnderWay r c.id =
          d.writeLog := by
  have h := hS.good
  refine ⟨fun c hc => ⟨fun d hd hid => ?_, fun hnone => ?_⟩, ?_⟩
  · exact h.readLog_prefix (hfail r) hc hd hid
  · exact h.readLog_nil (hfail r) hc hnone
  · intro c hc d hd hid hheld _ hcl hcl'
    exact h.complete hcl hcl' (hfail r) hc hd hid hheld

/-- A stream is opened and accepted, the client writes three bytes, the
server reads two of them, and the client writes one more. -/
def sampleRun : List Action :=
  [⟨.client, .openStart⟩, ⟨.client, .writerNext⟩, ⟨.server, .readerNext⟩,
    ⟨.server, .accept⟩, ⟨.server, .writerNext⟩, ⟨.client, .readerNext⟩,
    ⟨.client, .openPoll 0⟩, ⟨.client, .pollWrite 0 [1, 2, 3]⟩,
    ⟨.client, .writerNext⟩, ⟨.server, .readerNext⟩, ⟨.server, .pollRead 0 2⟩,
    ⟨.client, .pollWrite 0 [4]⟩]

/-- The state after the sample run, with windows of four bytes. -/
def sample : System :=
  after (fun _ => { Config.default with initialStreamWindow := 4 }) sampleRun

theorem stream_integrity_sample :
    ∃ c ∈ (sample.ends .server).streams, ∃ d ∈ (sample.ends .client).streams,
      c.readLog = [1, 2] ∧ c.readLog <+: d.writeLog ∧
        c.readLog ++ c.inner.recv.contents ++ sample.dataUnderWay .client c.id =
          d.writeLog := by
  have hstate : ∃ c ∈ (sample.ends .server).streams,
      ∃ d ∈ (sample.ends .client).streams,
        d.id = c.id ∧ c.Held ∧ d.Held ∧ c.readLog = [1, 2] := by
    decide +kernel
  have hopen : (sample.ends .client).isClosing = false ∧
      (sample.ends .server).isClosing = false := by
    decide +kernel
  have hfail : ∀ r, (sample.ends r).encodeFailed = false := by
    intro r
    cases r <;> decide +kernel
  obtain ⟨c, hc, d, hd, hid, hheld, hheld', hread⟩ := hstate
  obtain ⟨hfront, hall⟩ :=
    stream_integrity ⟨sampleRun, rfl⟩ hfail .client
  exact ⟨c, hc, d, hd, hread, (hfront c hc).1 d hd hid,
    hall c hc d hd hid hheld hheld' hopen.1 hopen.2⟩

/-! ## Credit -/

/-- The credit of a direction, for the streams of a system. -/
theorem Good.credit (h : Good cfg S) {d : Cell}
    (hd : d ∈ (S.ends r).streams) (hheld : d.Held)
    (hcl : (S.ends r).isClosing = false)
    (hcl' : (S.ends r.peer).isClosing = false)
    (hpeer : ((S.pipe d.id).ends r.peer).cell = none ∨
      ((S.pipe d.id).ends r.peer).registered = true) :
    d.inner.sendWindow.available.toNat + (S.dataUnderWay r d.id).length +
        ((S.pipe d.id).ends r.peer).unread.length +
        ((S.pipe d.id).ends r.peer).pending + S.creditUnderWay r.peer d.id =
      (cfg r).initialStreamWindow.toNat := by
  have hsum := ((h.pipes d.id).credit r).conserved hcl hcl'
    (h.registered hd hheld hcl) hpeer
  have hcell := h.cell_of_mem hd
  rw [h.payloads_chan, h.grants_chan] at hsum
  simpa only [End.available, hcell, Option.map_some, Option.getD_some]
    using hsum

/-- No direction ever has more credit, bytes and debts than its window. -/
theorem Good.credit_le (h : Good cfg S) {c d : Cell}
    (hc : c ∈ (S.ends r.peer).streams) (hd : d ∈ (S.ends r).streams)
    (hid : c.id = d.id) :
    d.inner.sendWindow.available.toNat + (S.dataUnderWay r d.id).length +
        c.inner.recv.contents.length +
        c.inner.recvWindow.pendingCredit.toNat +
        S.creditUnderWay r.peer d.id ≤
      (cfg r).initialStreamWindow.toNat := by
  have hsum := ((h.pipes d.id).credit r).bound
  have hcelld := h.cell_of_mem hd
  have hcellc := h.cell_of_mem hc
  rw [hid] at hcellc
  rw [h.payloads_chan, h.grants_chan] at hsum
  simpa only [End.available, End.unread, End.pending, hcelld, hcellc,
    Option.map_some, Option.getD_some] using hsum

/-- One update under way is part of the credit under way. -/
theorem credit_mem {f : Frame} (hf : f ∈ S.underWay r) (i : StreamId) :
    f.creditFor i ≤ S.creditUnderWay r i :=
  List.le_sum_of_mem (List.mem_map_of_mem hf)

/-- **Credit is conserved.**  In every reachable state in which neither
session is closing, for a held and un-reset sender: its credit, the bytes
under way, the bytes its peer has not read, the credit its peer has not yet
returned and the credit under way back add up to the sender's own initial
window, whether the peer's stream is held too or was not created yet.
Therefore, whatever state the two streams of an id are in, the receiver never
holds more than the sender's window, no grant under way saturates, and
neither the conversion of the number of consumed bytes nor the addition to
the pending credit ever wraps. -/
theorem credit_conserved (hS : Reachable cfg S) (r : Role) :
    ((S.ends r).isClosing = false → (S.ends r.peer).isClosing = false →
      ∀ d ∈ (S.ends r).streams, d.Held →
        (∀ c ∈ (S.ends r.peer).streams, c.id = d.id → c.Held →
          d.inner.sendWindow.available.toNat +
              (S.dataUnderWay r d.id).length + c.inner.recv.contents.length +
              c.inner.recvWindow.pendingCredit.toNat +
              S.creditUnderWay r.peer d.id =
            (cfg r).initialStreamWindow.toNat) ∧
        ((∀ c ∈ (S.ends r.peer).streams, c.id ≠ d.id) →
          d.inner.sendWindow.available.toNat +
              (S.dataUnderWay r d.id).length + S.creditUnderWay r.peer d.id =
            (cfg r).initialStreamWindow.toNat)) ∧
    ∀ d ∈ (S.ends r).streams, ∀ c ∈ (S.ends r.peer).streams, c.id = d.id →
      c.inner.recv.contents.length ≤ (cfg r).initialStreamWindow.toNat ∧
      (∀ flags delta, .windowUpdate d.id flags delta ∈ S.underWay r.peer →
        (d.inner.sendWindow.grant delta).available.toNat =
          d.inner.sendWindow.available.toNat + delta.toNat) ∧
      ∀ remaining,
        let consumed := (c.inner.recv.readInto remaining).1.length
        (UInt32.ofNat consumed).toNat = consumed ∧
        (c.inner.recvWindow.pendingCredit + UInt32.ofNat consumed).toNat =
          c.inner.recvWindow.pendingCredit.toNat + consumed := by
  have h := hS.good
  have hlt := (cfg r).initialStreamWindow.toNat_lt
  refine ⟨fun hcl hcl' d hd hheld => ⟨fun c hc hid hheld' => ?_, fun hnone => ?_⟩,
    fun d hd c hc hid => ?_⟩
  · have hcellc := h.cell_of_mem hc
    have hreg := h.registered hc hheld' hcl'
    rw [hid] at hcellc hreg
    have hsum := h.credit hd hheld hcl hcl' (.inr hreg)
    simpa only [End.unread, End.pending, hcellc, Option.map_some,
      Option.getD_some] using hsum
  · have hcellc := cell_none hnone
    have hsum := h.credit hd hheld hcl hcl' (.inl hcellc)
    simpa only [End.unread, End.pending, hcellc, Option.map_none,
      Option.getD_none, List.length_nil, Nat.add_zero] using hsum
  · have hle := h.credit_le hc hd hid
    refine ⟨by omega, fun flags delta hf => ?_, fun remaining => ?_⟩
    · have hone := credit_mem hf d.id
      simp only [Frame.creditFor, if_pos] at hone
      rw [SendWindow.toNat_grant]
      omega
    · have hlen : (c.inner.recv.readInto remaining).1.length ≤
          c.inner.recv.contents.length := by
        rw [RecvBuffer.readInto_fst, List.length_take]
        exact Nat.min_le_right _ _
      have hcast : (UInt32.ofNat (c.inner.recv.readInto remaining).1.length
          ).toNat = (c.inner.recv.readInto remaining).1.length :=
        UInt32.toNat_ofNat_of_lt' (by simp only [UInt32.size]; omega)
      refine ⟨hcast, ?_⟩
      rw [Word.toNat_add_of_lt (by rw [hcast]; omega), hcast]

theorem credit_conserved_sample :
    ∃ c ∈ (sample.ends .server).streams, ∃ d ∈ (sample.ends .client).streams,
      c.inner.recvWindow.pendingCredit.toNat = 0 ∧
        c.inner.recv.contents.length = 1 ∧
        d.inner.sendWindow.available.toNat +
            (sample.dataUnderWay .client d.id).length +
            c.inner.recv.contents.length +
            c.inner.recvWindow.pendingCredit.toNat +
            sample.creditUnderWay .server d.id = 4 := by
  have hstate : ∃ c ∈ (sample.ends .server).streams,
      ∃ d ∈ (sample.ends .client).streams,
        c.id = d.id ∧ c.Held ∧ d.Held ∧
          c.inner.recvWindow.pendingCredit.toNat = 0 ∧
          c.inner.recv.contents.length = 1 := by
    decide +kernel
  have hopen : (sample.ends .client).isClosing = false ∧
      (sample.ends .server).isClosing = false := by
    decide +kernel
  obtain ⟨c, hc, d, hd, hid, hheld, hheld', hpend, hlen⟩ := hstate
  obtain ⟨hsum, -⟩ := credit_conserved ⟨sampleRun, rfl⟩ .client
  exact ⟨c, hc, d, hd, hpend, hlen,
    (hsum hopen.1 hopen.2 d hd hheld').1 c hc hid hheld⟩

end System

end NetMux
