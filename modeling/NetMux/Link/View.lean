import NetMux.Lib.Keyed
import NetMux.Link.System
import NetMux.Link.Transfer

/-!
# Seeing a system as its pipes

`System.pipe` singles out one stream id of a system.  `Session.Wf` is what
holds of each session as a whole: stream ids are distinct, the registry and
the accept queue point where they should, the closer is only asked to remove
released streams, and every outbound frame carries a message, a ping or a
`GoAway`.  The lemmas say how a pipe sees the few ways in which the session's
code changes its state: updating a stream, making one, taking one out of the
registry, and shutting down.
-/

namespace NetMux

open Lib

/-! ## Frames this code sends -/

/-- A frame that this code sends, with at most `limit` payload bytes;
`closing` says whether the session is closing, and only then may it have sent
`GoAway`. -/
inductive Frame.Ours (limit : Nat) (closing : Bool) : Frame → Prop where
  | msg (i : StreamId) (m : Msg) (h : m.payload.length ≤ limit) :
      Ours limit closing (m.frame i)
  | ping (nonce : UInt32) : Ours limit closing (.mkPing nonce)
  | pong (nonce : UInt32) : Ours limit closing (.pong nonce)
  | goAway (code : ErrorCode) (h : closing = true) :
      Ours limit closing (.goAway code)

namespace Frame.Ours

variable {limit : Nat} {closing : Bool} {f : Frame}

theorem flagsDefined (h : Ours limit closing f) : f.FlagsDefined := by
  cases h with
  | msg i m h => cases m <;> exact rfl
  | ping nonce => exact rfl
  | pong nonce => exact rfl
  | goAway code h => trivial

theorem payloadLen_le (h : Ours limit closing f) : f.payloadLen ≤ limit := by
  cases h with
  | msg i m h =>
      cases m with
      | data payload => exact h
      | _ => exact Nat.zero_le _
  | ping nonce => exact Nat.zero_le _
  | pong nonce => exact Nat.zero_le _
  | goAway code h => exact Nat.zero_le _

/-- A frame that its codec lets through meets the codec's own limit, and a
session that is closing goes on closing. -/
theorem weaken {limit' : Nat} {closing' : Bool} (h : Ours limit closing f)
    (hlen : f.payloadLen ≤ limit') (hcl : closing = true → closing' = true) :
    Ours limit' closing' f := by
  cases h with
  | msg i m h =>
      refine .msg i m ?_
      cases m with
      | data payload => exact hlen
      | _ => exact Nat.zero_le _
  | ping nonce => exact .ping nonce
  | pong nonce => exact .pong nonce
  | goAway code h => exact .goAway code (hcl h)

end Frame.Ours

/-! ## The view -/

/-- One side of stream `i`. -/
def Session.endOf (s : Session) (i : StreamId) : End where
  cell := Keyed.lookup Cell.id s.streams i
  registered := (s.registry.get i).isSome
  closing := s.isClosing
  outClosed := s.out.closed
  readerDone := s.readerDone
  encodeFailed := s.encodeFailed

/-- Stream `i` of a system. -/
def System.pipe (S : System) (i : StreamId) : Pipe where
  ends := fun r => (S.ends r).endOf i
  chan := fun r => msgs i (S.wire r ++ (S.ends r).out.queue)

namespace System

/-- Replacing a session replaces one side of every pipe. -/
theorem pipe_put (S : System) (r : Role) (s : Session) (i : StreamId) :
    (S.put r s).pipe i =
      (S.pipe i).set r (s.endOf i) (msgs i (S.wire r ++ s.out.queue))
        ((S.pipe i).chan r.peer) := by
  have hends := put_ends_ne S s (Role.peer_ne r)
  apply Pipe.ext_sides r <;> simp [pipe, hends]

/-- A pipe that sees nothing of a change. -/
theorem pipe_put_same (S : System) (r : Role) {s : Session} {i : StreamId}
    (hend : s.endOf i = (S.ends r).endOf i)
    (hout : msgs i s.out.queue = msgs i (S.ends r).out.queue) :
    (S.put r s).pipe i = S.pipe i := by
  have hends := put_ends_ne S s (Role.peer_ne r)
  apply Pipe.ext_sides r <;> simp [pipe, hends, hend, hout]

/-- A change of one side that sends `ms` on stream `i`. -/
theorem pipe_put_send (S : System) (r : Role) {s : Session} {i : StreamId}
    {ms : List Msg}
    (hout : msgs i s.out.queue = msgs i (S.ends r).out.queue ++ ms) :
    (S.put r s).pipe i =
      (S.pipe i).set r (s.endOf i) ((S.pipe i).chan r ++ ms)
        ((S.pipe i).chan r.peer) := by
  rw [pipe_put, msgs_append, hout]
  simp [pipe]

end System

/-! ## What holds of a session as a whole -/

/-- The invariant of one session. -/
structure Session.Wf (cfg : Config) (r : Role) (s : Session) : Prop where
  config : s.config = cfg
  role : s.role = r
  distinct : Keyed.Distinct Cell.id s.streams
  entries : ∀ i h, s.registry.get i = some h →
    ∃ c, s.streams[h]? = some c ∧ c.id = i
  nextOwned : r.owns s.idAlloc.next = true
  fresh : ∀ c ∈ s.streams, r.owns c.id = true →
    c.id.toNat < s.idAlloc.next.toNat
  acceptOpen : s.accept.closed = false
  acceptNodup : s.accept.queue.Nodup
  acceptQueued : ∀ h ∈ s.accept.queue,
    ∃ c, s.streams[h]? = some c ∧ c.owner = .queued
  closerReleased : ∀ i ∈ s.closer.queue,
    ∃ c ∈ s.streams, c.id = i ∧ c.released = true
  out : ∀ f ∈ s.out.queue, Frame.Ours cfg.maxFrameSize.toNat s.isClosing f
  shutdownClosing : s.shutdown = true → s.isClosing = true
  writerClosing : s.writer ≠ .running → s.isClosing = true
  goneClosing : s.peerGone = true → s.isClosing = true

namespace Session

theorem wf_new (cfg : Config) (r : Role) : Wf cfg r (new cfg r) where
  config := rfl
  role := rfl
  distinct := List.nodup_nil
  entries := by
    intro i h hget
    simp [new, StreamRegistry.get] at hget
  nextOwned := Role.owns_firstId r
  fresh := by simp [new]
  acceptOpen := rfl
  acceptNodup := List.nodup_nil
  acceptQueued := by simp [new, Chan.new]
  closerReleased := by simp [new, Chan.new]
  out := by simp [new, Chan.new]
  shutdownClosing := by simp [new]
  writerClosing := by simp [new]
  goneClosing := by simp [new]

variable {cfg : Config} {r : Role} {s : Session}

/-- The stream at a position is the one found under its id. -/
theorem Wf.endOf_cell (h : Wf cfg r s) {n : Ref} {c : Cell}
    (hc : s.streams[n]? = some c) : (s.endOf c.id).cell = some c :=
  Keyed.lookup_position h.distinct hc

/-- What the registry finds is the stream with that id. -/
theorem Wf.find_some (h : Wf cfg r s) {i : StreamId} {n : Ref} {c : Cell}
    (hf : s.find i = some (n, c)) :
    s.streams[n]? = some c ∧ c.id = i ∧ (s.endOf i).registered = true := by
  obtain ⟨hget, hc⟩ := Session.find_some hf
  obtain ⟨d, hd, hid⟩ := h.entries i n hget
  rw [hc] at hd
  obtain rfl := Option.some.inj hd
  exact ⟨hc, hid, by simp [endOf, hget]⟩

theorem Wf.find_none (h : Wf cfg r s) {i : StreamId}
    (hf : s.find i = none) : (s.endOf i).registered = false := by
  unfold find at hf
  cases hget : s.registry.get i with
  | none => simp [endOf, hget]
  | some m =>
      obtain ⟨d, hd, hid⟩ := h.entries i m hget
      simp [hget, hd] at hf

/-- The accept queue holds only streams nobody has taken. -/
theorem Wf.queued (h : Wf cfg r s) {n : Ref} {c : Cell}
    (hc : s.streams[n]? = some c) (hn : n ∈ s.accept.queue) :
    c.owner = .queued := by
  obtain ⟨d, hd, hq⟩ := h.acceptQueued n hn
  obtain rfl := Option.some.inj (hc.symm.trans hd)
  exact hq

/-! ### Updating a stream -/

section Update

variable {n : Ref} {c c' : Cell} {emit : Emit}

theorem endOf_set (h : Wf cfg r s) (hc : s.streams[n]? = some c)
    (hid : c'.id = c.id) (i : StreamId) :
    Keyed.lookup Cell.id (s.streams.set n c') i =
      if i = c.id then some c' else Keyed.lookup Cell.id s.streams i :=
  Keyed.lookup_set h.distinct hc hid i

theorem endOf_update_self (h : Wf cfg r s) (hc : s.streams[n]? = some c)
    (hid : c'.id = c.id) (emit : Emit) :
    (s.update n c' emit).endOf c.id =
      { s.endOf c.id with cell := some c' } := by
  unfold endOf update
  simp only [endOf_set h hc hid, if_true, Chan.sendAll_closed]

theorem endOf_update_ne (h : Wf cfg r s) (hc : s.streams[n]? = some c)
    (hid : c'.id = c.id) (emit : Emit) {i : StreamId} (hi : i ≠ c.id) :
    (s.update n c' emit).endOf i = s.endOf i := by
  unfold endOf update
  simp only [endOf_set h hc hid, if_neg hi, Chan.sendAll_closed]

/-- A stream operation on a held or registered stream keeps the session's
invariant. -/
theorem Wf.update (h : Wf cfg r s) (hc : s.streams[n]? = some c)
    (hid : c'.id = c.id) (hrel : c.released = true → c'.released = true)
    (hq : n ∈ s.accept.queue → c'.owner = .queued)
    (hcloses : ∀ i ∈ emit.closes, i = c.id ∧ c'.released = true)
    (hframes : ∀ f ∈ emit.frames,
      Frame.Ours cfg.maxFrameSize.toNat s.isClosing f) :
    Wf cfg r (s.update n c' emit) := by
  have hlt : n < s.streams.length := (List.getElem?_eq_some_iff.mp hc).1
  have hself : (s.streams.set n c')[n]? = some c' :=
    List.getElem?_set_self hlt
  have hmem' : c' ∈ s.streams.set n c' := List.mem_of_getElem? hself
  refine
    { h with
      distinct := h.distinct.set hc hid
      entries := ?_
      fresh := ?_
      acceptQueued := ?_
      closerReleased := ?_
      out := ?_ }
  · intro i m hget
    obtain ⟨d, hd, hdid⟩ := h.entries i m hget
    by_cases hmn : n = m
    · subst hmn
      obtain rfl := Option.some.inj (hc.symm.trans hd)
      exact ⟨c', hself, hid.trans hdid⟩
    · exact ⟨d, by rw [← hd]; exact List.getElem?_set_ne hmn, hdid⟩
  · intro d hd
    rcases List.mem_or_eq_of_mem_set hd with hd | rfl
    · exact h.fresh d hd
    · rw [hid]
      exact h.fresh c (List.mem_of_getElem? hc)
  · intro m hm
    obtain ⟨d, hd, hdq⟩ := h.acceptQueued m hm
    by_cases hmn : n = m
    · subst hmn
      exact ⟨c', hself, hq hm⟩
    · exact ⟨d, by rw [← hd]; exact List.getElem?_set_ne hmn, hdq⟩
  · intro i hi
    have hqueue : (s.update n c' emit).closer.queue =
        s.closer.queue ++ if s.closer.closed then [] else emit.closes :=
      Chan.sendAll_queue _ _
    rw [hqueue] at hi
    rcases List.mem_append.mp hi with hi | hi
    · obtain ⟨d, hd, hdid, hdrel⟩ := h.closerReleased i hi
      by_cases hcd : d.id = c.id
      · obtain rfl := h.distinct.entry hd (List.mem_of_getElem? hc) hcd
        exact ⟨c', hmem', hid.trans hdid, hrel hdrel⟩
      · obtain ⟨m, hm⟩ := List.mem_iff_getElem?.mp hd
        refine ⟨d, ?_, hdid, hdrel⟩
        have hmn : n ≠ m := by
          rintro rfl
          rw [hc] at hm
          exact hcd (congrArg Cell.id (Option.some.inj hm).symm)
        apply List.mem_of_getElem? (i := m)
        show (s.streams.set n c')[m]? = some d
        rw [List.getElem?_set_ne hmn]
        exact hm
    · have hi' : i ∈ emit.closes := by
        split at hi
        · cases hi
        · exact hi
      obtain ⟨rfl, hrel'⟩ := hcloses i hi'
      exact ⟨c', hmem', hid, hrel'⟩
  · intro f hf
    have hqueue : (s.update n c' emit).out.queue =
        s.out.queue ++ if s.out.closed then [] else emit.frames :=
      Chan.sendAll_queue _ _
    rw [hqueue] at hf
    rcases List.mem_append.mp hf with hf | hf
    · exact h.out f hf
    · apply hframes f
      split at hf
      · cases hf
      · exact hf

end Update

/-! ### Handing frames to the outbound queue -/

/-- Sending a frame of our own keeps the invariant. -/
theorem Wf.enqueue (h : Wf cfg r s) {f : Frame}
    (hf : Frame.Ours cfg.maxFrameSize.toNat s.isClosing f) :
    Wf cfg r (s.enqueue f) := by
  refine { h with out := ?_ }
  intro g hg
  have hqueue : (s.enqueue f).out.queue =
      s.out.queue ++ if s.out.closed then [] else [f] :=
    Chan.sendAll_queue _ _
  rw [hqueue] at hg
  rcases List.mem_append.mp hg with hg | hg
  · exact h.out g hg
  · split at hg
    · cases hg
    · rw [List.mem_singleton.mp hg]
      exact hf

@[simp] theorem endOf_enqueue (s : Session) (f : Frame) (i : StreamId) :
    (s.enqueue f).endOf i = s.endOf i := by
  simp [endOf, enqueue]

/-! ### Taking a stream out of the registry -/

/-- An emptier registry is still sound. -/
theorem Wf.unregister (h : Wf cfg r s) {registry : StreamRegistry}
    (hsub : ∀ i n, registry.get i = some n → s.registry.get i = some n) :
    Wf cfg r { s with registry := registry } :=
  { h with entries := fun i n hget => h.entries i n (hsub i n hget) }

/-! ### Making a stream -/

section Create

variable {c : Cell} {registry : StreamRegistry}

/-- A new stream with a new id, registered at its place. -/
theorem endOf_create {s' : Session} {n : Ref}
    (hstreams : s'.streams = s.streams ++ [c])
    (hreg : ∀ j, s'.registry.get j =
      if j = c.id then some n else s.registry.get j)
    (hnew : ∀ d ∈ s.streams, d.id ≠ c.id)
    (hclosing : s'.isClosing = s.isClosing)
    (hout : s'.out.closed = s.out.closed)
    (hdone : s'.readerDone = s.readerDone)
    (hfail : s'.encodeFailed = s.encodeFailed) (i : StreamId) :
    s'.endOf i =
      if i = c.id then
        { s.endOf i with cell := some c, registered := true }
      else s.endOf i := by
  unfold endOf
  rw [hstreams, hreg, hclosing, hout, hdone, hfail, Keyed.lookup_append hnew]
  split <;> rfl

theorem Wf.create (h : Wf cfg r s) (hnew : ∀ d ∈ s.streams, d.id ≠ c.id)
    (hreg : ∀ j, registry.get j =
      if j = c.id then some s.streams.length else s.registry.get j)
    (hfresh : r.owns c.id = true → c.id.toNat < s.idAlloc.next.toNat) :
    Wf cfg r
      { s with
        registry := registry
        streams := s.streams ++ [c] } where
  config := h.config
  role := h.role
  distinct := h.distinct.append hnew
  entries := by
    intro i n hget
    rw [hreg] at hget
    split at hget
    · rename_i hi
      obtain rfl := Option.some.inj hget
      exact ⟨c, by simp, hi.symm⟩
    · obtain ⟨d, hd, hid⟩ := h.entries i n hget
      exact ⟨d, List.getElem?_append_left
        (List.getElem?_eq_some_iff.mp hd).1 ▸ hd, hid⟩
  nextOwned := h.nextOwned
  fresh := by
    intro d hd
    rcases List.mem_append.mp hd with hd | hd
    · exact h.fresh d hd
    · rw [List.mem_singleton.mp hd]
      exact hfresh
  acceptOpen := h.acceptOpen
  acceptNodup := h.acceptNodup
  goneClosing := h.goneClosing
  acceptQueued := by
    intro n hn
    obtain ⟨d, hd, hq⟩ := h.acceptQueued n hn
    exact ⟨d, List.getElem?_append_left
      (List.getElem?_eq_some_iff.mp hd).1 ▸ hd, hq⟩
  closerReleased := by
    intro i hi
    obtain ⟨d, hd, hid, hrel⟩ := h.closerReleased i hi
    exact ⟨d, List.mem_append_left _ hd, hid, hrel⟩
  out := h.out
  shutdownClosing := h.shutdownClosing
  writerClosing := h.writerClosing

end Create

/-! ### Shutting down -/

/-- The forced close of a stream, as a change of its cell. -/
def force (c : Cell) : Cell := { c with inner := c.inner.forceClose }

theorem forceCloseAll_eq (streams : List Cell) (hs : List Ref) :
    forceCloseAll streams hs = Keyed.modifyAll force streams hs := rfl

theorem force_idem (c : Cell) : force (force c) = force c := rfl

theorem force_id (c : Cell) : (force c).id = c.id := rfl

theorem force_later (c : Cell) : Cell.Later c (force c) :=
  ⟨fun h => h, fun _ => rfl, fun _ => rfl, fun h => h⟩

/-- The fields of a session after `initiate_shutdown` begins one. -/
theorem initiateShutdown_eq (hopen : s.isClosing = false) (code : ErrorCode) :
    s.initiateShutdown code =
      { s with
        isClosing := true
        out := s.out.send (.goAway code)
        registry := ∅
        streams := Keyed.modifyAll force s.streams s.registry.drain.1
        shutdown := true } := by
  unfold initiateShutdown
  simp [hopen, enqueue, StreamRegistry.drain, forceCloseAll_eq]

theorem initiateShutdown_again (hclosing : s.isClosing = true)
    (code : ErrorCode) : s.initiateShutdown code = s := by
  simp [initiateShutdown, hclosing]

theorem initiateShutdown_isClosing (s : Session) (code : ErrorCode) :
    (s.initiateShutdown code).isClosing = true := by
  cases hcl : s.isClosing with
  | true => rw [initiateShutdown_again hcl, hcl]
  | false => rw [initiateShutdown_eq hcl]

/-- A session may begin to close at any time. -/
theorem Wf.closing (h : Wf cfg r s) :
    Wf cfg r { s with isClosing := true } :=
  { h with
    out := fun f hf =>
      (h.out f hf).weaken (h.out f hf).payloadLen_le fun _ => rfl
    shutdownClosing := fun _ => rfl
    writerClosing := fun _ => rfl
    goneClosing := fun _ => rfl }

/-- **A shutdown, seen by each stream**: what was registered is closed and
leaves the registry. -/
theorem endOf_initiateShutdown (h : Wf cfg r s) (hopen : s.isClosing = false)
    (code : ErrorCode) (i : StreamId) :
    (s.initiateShutdown code).endOf i =
      { s.endOf i with
        closing := true
        registered := false
        cell :=
          if (s.endOf i).registered then
            (s.endOf i).cell.map fun c =>
              { c with inner := c.inner.forceClose }
          else (s.endOf i).cell } := by
  rw [initiateShutdown_eq hopen]
  unfold endOf
  simp only [Chan.send_closed, StreamRegistry.get_empty, Option.isSome_none,
    End.mk.injEq, and_true]
  cases hcell : Keyed.lookup Cell.id s.streams i with
  | none =>
      have hnone : Keyed.lookup Cell.id
          (Keyed.modifyAll force s.streams s.registry.drain.1) i = none := by
        rw [Keyed.lookup_none] at hcell ⊢
        intro a ha hid
        have hmem : a.id ∈ (Keyed.modifyAll force s.streams
            s.registry.drain.1).map Cell.id := List.mem_map_of_mem ha
        rw [Keyed.map_key_modifyAll force_idem force_id] at hmem
        obtain ⟨d, hd, hdid⟩ := List.mem_map.mp hmem
        exact hcell d hd (hdid.trans hid)
      rw [hnone]
      split <;> rfl
  | some c =>
      obtain ⟨hc, rfl⟩ := Keyed.lookup_some hcell
      obtain ⟨n, hn⟩ := List.mem_iff_getElem?.mp hc
      rw [Keyed.lookup_modifyAll h.distinct force_idem force_id hn]
      have hiff : n ∈ s.registry.drain.1 ↔
          (s.registry.get c.id).isSome = true := by
        rw [StreamRegistry.mem_drain, Option.isSome_iff_exists]
        constructor
        · rintro ⟨j, hj⟩
          obtain ⟨d, hd, hid⟩ := h.entries j n hj
          obtain rfl := Option.some.inj (hn.symm.trans hd)
          exact ⟨n, by rw [hid]; exact hj⟩
        · rintro ⟨m, hm⟩
          obtain ⟨d, hd, hid⟩ := h.entries c.id m hm
          obtain rfl := h.distinct.position hd hn hid
          exact ⟨c.id, hm⟩
      by_cases hreg : (s.registry.get c.id).isSome = true
      · rw [if_pos (hiff.mpr hreg), if_pos hreg]
        rfl
      · rw [if_neg (fun hmem => hreg (hiff.mp hmem)), if_neg hreg]

theorem Wf.initiateShutdown (h : Wf cfg r s) (code : ErrorCode) :
    Wf cfg r (s.initiateShutdown code) := by
  cases hcl : s.isClosing with
  | true => rw [initiateShutdown_again hcl]; exact h
  | false =>
      rw [initiateShutdown_eq hcl]
      have hget : ∀ {n : Ref} {c : Cell}, s.streams[n]? = some c →
          ∃ d, (Keyed.modifyAll force s.streams s.registry.drain.1)[n]? =
            some d ∧ d.id = c.id ∧ d.owner = c.owner ∧ Cell.Later c d := by
        intro n c hc
        rw [Keyed.getElem?_modifyAll force_idem, hc, Option.map_some]
        by_cases hmem : n ∈ s.registry.drain.1
        · rw [if_pos hmem]
          exact ⟨_, rfl, rfl, rfl, force_later c⟩
        · rw [if_neg hmem]
          exact ⟨_, rfl, rfl, rfl, .refl c⟩
      refine
        { h.closing with
          distinct := h.distinct.modifyAll force_idem force_id _
          entries := ?_
          fresh := ?_
          acceptQueued := ?_
          closerReleased := ?_
          out := ?_
          shutdownClosing := fun _ => rfl }
      · intro i n hn
        rw [StreamRegistry.get_empty] at hn
        cases hn
      · intro d hd hown
        have hmem : d.id ∈ (Keyed.modifyAll force s.streams
            s.registry.drain.1).map Cell.id := List.mem_map_of_mem hd
        rw [Keyed.map_key_modifyAll force_idem force_id] at hmem
        obtain ⟨c, hc, hid⟩ := List.mem_map.mp hmem
        rw [← hid] at hown ⊢
        exact h.fresh c hc hown
      · intro n hn
        obtain ⟨c, hc, hq⟩ := h.acceptQueued n hn
        obtain ⟨d, hd, -, howner, -⟩ := hget hc
        exact ⟨d, hd, howner.trans hq⟩
      · intro i hi
        obtain ⟨c, hc, hid, hrel⟩ := h.closerReleased i hi
        obtain ⟨n, hn⟩ := List.mem_iff_getElem?.mp hc
        obtain ⟨d, hd, hdid, -, hlater⟩ := hget hn
        exact ⟨d, List.mem_of_getElem? hd, hdid.trans hid,
          hlater.released hrel⟩
      · exact (h.closing.enqueue (.goAway code rfl)).out

theorem msgs_initiateShutdown (s : Session) (code : ErrorCode)
    (i : StreamId) :
    msgs i (s.initiateShutdown code).out.queue = msgs i s.out.queue := by
  cases hcl : s.isClosing with
  | true => rw [initiateShutdown_again hcl]
  | false =>
      rw [initiateShutdown_eq hcl]
      show msgs i (s.out.sendAll [.goAway code]).queue = _
      rw [Chan.sendAll_queue]
      split <;> simp [msgs, Frame.msg?]

end Session

end NetMux
