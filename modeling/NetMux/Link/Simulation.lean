import NetMux.Link.View

/-!
# Every step of a system is a path of steps of each of its pipes

`Good` is the invariant of a system: each session is well formed, the wires
carry only frames this code sends, and every pipe satisfies its invariant.
`Moves` says that each pipe gets from one system state to another by steps of
its own, with the events among them limited by a permission.  This module
proves it for the user calls and the tasks other than the reader.
-/

namespace NetMux

open Lib Lib.Run

namespace System

/-- The invariant of a system. -/
structure Good (cfg : Role → Config) (S : System) : Prop where
  wf : ∀ r, (S.ends r).Wf (cfg r) r
  wire : ∀ r, ∀ f ∈ S.wire r,
    Frame.Ours (FrameCodec.new (cfg r).maxFrameSize).maxPayload.toNat
      (S.ends r).isClosing f
  pipes : ∀ i, Pipe.Inv cfg i (S.pipe i)

/-- Every pipe of `S` gets to the corresponding pipe of `S'`. -/
def Moves (cfg : Role → Config) (ok : StreamId → Ev → Pipe → Prop)
    (S S' : System) : Prop :=
  ∀ i, Path (PipeStep cfg i) (ok i) (S.pipe i) (S'.pipe i)

section Moves

variable {cfg : Role → Config} {ok : StreamId → Ev → Pipe → Prop}
  {S S' S'' : System} {r : Role}

theorem Moves.refl (S : System) : Moves cfg ok S S := fun _ => .refl _

theorem Moves.trans (h₁ : Moves cfg ok S S') (h₂ : Moves cfg ok S' S'') :
    Moves cfg ok S S'' :=
  fun i => (h₁ i).trans (h₂ i)

/-- No pipe sees anything. -/
theorem Moves.of_same {s : Session}
    (hend : ∀ i, s.endOf i = (S.ends r).endOf i)
    (hout : ∀ i, msgs i s.out.queue = msgs i (S.ends r).out.queue) :
    Moves cfg ok S (S.put r s) := by
  intro i
  rw [pipe_put_same S r (hend i) (hout i)]
  exact .refl _

/-- A step of one pipe that the others do not see. -/
theorem Moves.of_step {s : Session} {i : StreamId} {e : Ev} {E : End}
    {ms : List Msg} (hok : ok i e (S.pipe i))
    (hstep : LocalStep (cfg r) i r ((S.pipe i).ends r) e E ms)
    (hend : s.endOf i = E)
    (hout : msgs i s.out.queue =
      msgs i (S.ends r).out.queue ++ ((S.pipe i).ends r).post ms)
    (hends : ∀ j, j ≠ i → s.endOf j = (S.ends r).endOf j)
    (houts : ∀ j, j ≠ i →
      msgs j s.out.queue = msgs j (S.ends r).out.queue) :
    Moves cfg ok S (S.put r s) := by
  intro j
  by_cases hji : j = i
  · subst hji
    rw [pipe_put_send S r hout, hend]
    exact .single hok (.act r hstep)
  · rw [pipe_put_same S r (hends j hji) (houts j hji)]
    exact .refl _

end Moves

/-! ## Calls on one stream -/

/-- What an operation on a stream sends, seen by each pipe. -/
theorem msgs_update {s : Session} {n : Ref} {c : Cell} {emit : Emit}
    {j : StreamId} {ms : List Msg} (hms : emit.frames = ms.map (Msg.frame j))
    (i : StreamId) :
    msgs i (s.update n c emit).out.queue =
      msgs i s.out.queue ++
        if i = j then (s.endOf i).post ms else [] := by
  show msgs i (s.out.sendAll emit.frames).queue = _
  rw [Chan.sendAll_queue, msgs_append, hms]
  unfold End.post Session.endOf
  by_cases hij : i = j
  · subst hij
    rw [if_pos rfl]
    split <;> simp
  · rw [if_neg hij]
    split
    · rfl
    · rw [msgs_frames_ne (Ne.symm hij)]

section Calls

variable {cfg : Role → Config} {ok : StreamId → Ev → Pipe → Prop}
  {S : System} {r : Role} {n : Ref} {c c' : Cell} {emit : Emit} {e : Ev}
  {ms : List Msg}

/-- The pipe of a stream sees an operation on that stream. -/
theorem pipe_update_self (hwf : (S.ends r).Wf (cfg r) r)
    (hc : (S.ends r).streams[n]? = some c) (hid : c'.id = c.id)
    (hms : emit.frames = ms.map (Msg.frame c.id)) :
    (S.put r ((S.ends r).update n c' emit)).pipe c.id =
      (S.pipe c.id).set r { (S.pipe c.id).ends r with cell := some c' }
        ((S.pipe c.id).chan r ++ ((S.pipe c.id).ends r).post ms)
        ((S.pipe c.id).chan r.peer) := by
  have hout := msgs_update (s := S.ends r) (n := n) (c := c') hms c.id
  rw [if_pos rfl] at hout
  rw [pipe_put_send S r hout, Session.endOf_update_self hwf hc hid emit]
  rfl

/-- The other pipes do not. -/
theorem pipe_update_ne (hwf : (S.ends r).Wf (cfg r) r)
    (hc : (S.ends r).streams[n]? = some c) (hid : c'.id = c.id)
    (hms : emit.frames = ms.map (Msg.frame c.id)) {i : StreamId}
    (hi : i ≠ c.id) :
    (S.put r ((S.ends r).update n c' emit)).pipe i = S.pipe i := by
  have hout := msgs_update (s := S.ends r) (n := n) (c := c') hms i
  rw [if_neg hi, List.append_nil] at hout
  exact pipe_put_same S r (Session.endOf_update_ne hwf hc hid emit hi) hout

/-- An operation on a stream that is a step of its pipe. -/
theorem Moves.update (hwf : (S.ends r).Wf (cfg r) r)
    (hc : (S.ends r).streams[n]? = some c) (hid : c'.id = c.id)
    (hms : emit.frames = ms.map (Msg.frame c.id))
    (hok : ok c.id e (S.pipe c.id))
    (hstep : LocalStep (cfg r) c.id r ((S.pipe c.id).ends r) e
      { (S.pipe c.id).ends r with cell := some c' } ms) :
    Moves cfg ok S (S.put r ((S.ends r).update n c' emit)) := by
  intro i
  by_cases hi : i = c.id
  · subst hi
    rw [pipe_update_self hwf hc hid hms]
    exact .single hok (.act r hstep)
  · rw [pipe_update_ne hwf hc hid hms hi]
    exact .refl _

end Calls

/-- A call of one side: the session stays well formed and every pipe moves. -/
structure Sim (cfg : Role → Config) (ok : StreamId → Ev → Pipe → Prop)
    (S : System) (r : Role) (s : Session) : Prop where
  wf : s.Wf (cfg r) r
  moves : Moves cfg ok S (S.put r s)

/-- What the environment of a call allows: quiet steps at any time. -/
def Quiet (ok : StreamId → Ev → Pipe → Prop) : Prop := ∀ i L, ok i .quiet L

/-- Messages without bytes travel in frames of ours. -/
theorem ours_frames {limit : Nat} {closing : Bool} {i : StreamId}
    (ms : List Msg)
    (h : ∀ m ∈ ms, m.payload.length ≤ limit) :
    ∀ f ∈ ms.map (Msg.frame i), Frame.Ours limit closing f := by
  intro f hf
  obtain ⟨m, hm, rfl⟩ := List.mem_map.mp hf
  exact .msg i m (h m hm)

/-- A session that is closing goes on closing. -/
theorem Moves.closing {cfg : Role → Config} {ok : StreamId → Ev → Pipe → Prop}
    {S S' : System} (h : Moves cfg ok S S') (r : Role)
    (hcl : (S.ends r).isClosing = true) : (S'.ends r).isClosing = true := by
  have hpath : ((S'.pipe 0).ends r).closing = true :=
    (h 0).invariant (I := fun L => (L.ends r).closing = true)
      (fun _ _ _ hinv _ hstep => hstep.closing hinv) hcl
  exact hpath

/-- Frames stay what they are while the system moves on. -/
theorem Good.wire_sub {cfg : Role → Config}
    {ok : StreamId → Ev → Pipe → Prop} {S S' : System} (h : Good cfg S)
    (hm : Moves cfg ok S S') (hsub : ∀ r, ∀ f ∈ S'.wire r, f ∈ S.wire r) :
    ∀ r, ∀ f ∈ S'.wire r,
      Frame.Ours (FrameCodec.new (cfg r).maxFrameSize).maxPayload.toNat
        (S'.ends r).isClosing f := by
  intro r f hf
  have hours := h.wire r f (hsub r f hf)
  exact hours.weaken hours.payloadLen_le (hm.closing r)

section HandleCalls

variable {cfg : Role → Config} {ok : StreamId → Ev → Pipe → Prop}
  {S : System} {r : Role} {n : Ref} {c : Cell}

theorem Sim.refl (h : Good cfg S) (r : Role) : Sim cfg ok S r (S.ends r) where
  wf := h.wf r
  moves := Moves.of_same (fun _ => rfl) fun _ => rfl

/-- A call leads to a good system again. -/
theorem Sim.good (h : Good cfg S) {s : Session} (hs : Sim cfg ok S r s) :
    Good cfg (S.put r s) where
  wf := by
    rw [Role.forall_iff r, put_ends_self, put_ends_ne S s (Role.peer_ne r)]
    exact ⟨hs.wf, h.wf r.peer⟩
  wire := h.wire_sub hs.moves fun _ _ hf => hf
  pipes := fun i =>
    (hs.moves i).invariant (fun _ _ _ hinv _ hstep => hinv.step hstep)
      (h.pipes i)

theorem put_put (S : System) (r : Role) (s s' : Session) :
    (S.put r s).put r s' = S.put r s' := by
  simp [put]

/-- One call after another. -/
theorem Sim.trans {s s' : Session} (h₁ : Sim cfg ok S r s)
    (h₂ : Sim cfg ok (S.put r s) r s') : Sim cfg ok S r s' where
  wf := h₂.wf
  moves := h₁.moves.trans (by
    have h := h₂.moves
    rw [put_put] at h
    exact h)

theorem update_update (s : Session) (n : Ref) (c c' : Cell)
    (emit emit' : Emit) :
    (s.update n c emit).update n c' emit' =
      s.update n c' (emit.append emit') := by
  unfold Session.update Emit.append
  simp [Chan.sendAll_sendAll]

/-- The pipe of a stream has it at this end. -/
theorem Good.cell (h : Good cfg S) (hc : (S.ends r).streams[n]? = some c) :
    ((S.pipe c.id).ends r).cell = some c :=
  (h.wf r).endOf_cell hc

theorem Good.cellOk (h : Good cfg S) (hc : (S.ends r).streams[n]? = some c) :
    CellOk (cfg r) c.id c :=
  ((h.pipes c.id).sound.ends r).cell c (h.cell hc)

/-- Putting a stream back unchanged changes nothing. -/
theorem update_same {s : Session} (hc : s.streams[n]? = some c) :
    s.update n c .none = s := by
  obtain ⟨hlt, hget⟩ := List.getElem?_eq_some_iff.mp hc
  have hset : s.streams.set n c = s.streams := by
    rw [← hget]
    exact List.set_getElem_self hlt
  simp [Session.update, hset, Emit.none]

/-- A step of a stream's own end, as a call of the session. -/
theorem Sim.update (h : Good cfg S) {c' : Cell} {emit : Emit} {e : Ev}
    {ms : List Msg} (hc : (S.ends r).streams[n]? = some c)
    (hid : c'.id = c.id) (hq : c'.owner = c.owner ∨ c.owner ≠ .queued)
    (hcloses : ∀ i ∈ emit.closes, i = c.id ∧ c'.released = true)
    (hms : emit.frames = ms.map (Msg.frame c.id))
    (hlen : ∀ m ∈ ms, m.payload.length ≤ (cfg r).maxFrameSize.toNat)
    (hok : ok c.id e (S.pipe c.id))
    (hstep : LocalStep (cfg r) c.id r ((S.pipe c.id).ends r) e
      { (S.pipe c.id).ends r with cell := some c' } ms) :
    Sim cfg ok S r ((S.ends r).update n c' emit) := by
  obtain ⟨d, hd, hlater⟩ := hstep.later (h.cell hc)
  obtain rfl := Option.some.inj hd
  refine ⟨(h.wf r).update hc hid hlater.released ?_ hcloses ?_, ?_⟩
  · intro hn
    have hcq := (h.wf r).queued hc hn
    exact (hq.resolve_right fun hne => hne hcq).trans hcq
  · rw [hms]
    exact ours_frames ms hlen
  · exact Moves.update (h.wf r) hc hid hms hok hstep

theorem pollRead_frames (c : Cell) (remaining : Nat) :
    (c.inner.pollRead remaining).2.2.frames =
        (c.readMsgs remaining).map (Msg.frame c.id) ∧
      (c.inner.pollRead remaining).2.2.closes = [] := by
  rw [Cell.readMsgs_eq, StreamInner.pollRead_emit]
  refine ⟨?_, rfl⟩
  split
  · rfl
  · cases (c.inner.recvWindow.onConsume (UInt32.ofNat
        (c.inner.recv.contents.take remaining).length)).1 with
    | none => rfl
    | some delta => rfl

theorem sim_pollRead (h : Good cfg S) (hok : Quiet ok) (n : Ref)
    (remaining : Nat) :
    Sim cfg ok S r ((S.ends r).pollRead n remaining) := by
  unfold Session.pollRead
  cases hh : (S.ends r).handleAt n with
  | none => exact .refl h r
  | some c =>
      obtain ⟨hc, ho⟩ := Session.handleAt_some hh
      obtain ⟨hframes, hcloses⟩ := pollRead_frames c remaining
      show Sim cfg ok S r ((S.ends r).update n (c.read remaining)
        (c.inner.pollRead remaining).2.2)
      refine Sim.update h hc (StreamInner.pollRead_same _ _).id (.inl rfl) ?_
        hframes ?_ (hok _ _) (.read remaining (h.cell hc) ho)
      · rw [hcloses]
        exact fun i hi => by cases hi
      · intro m hm
        obtain ⟨delta, rfl⟩ := Cell.readMsgs_credit _ _ hm
        exact Nat.zero_le _

theorem sim_pollWrite (h : Good cfg S) (hok : Quiet ok) (n : Ref)
    (buf : Bytes) : Sim cfg ok S r ((S.ends r).pollWrite n buf) := by
  unfold Session.pollWrite
  cases hh : (S.ends r).handleAt n with
  | none => exact .refl h r
  | some c =>
      obtain ⟨hc, ho⟩ := Session.handleAt_some hh
      have hcell := h.cell hc
      have hsame : Sim cfg ok S r ((S.ends r).update n
          { c with writeLog := c.writeLog ++ buf.take 0 } .none) := by
        rw [List.take_zero, List.append_nil, update_same hc]
        exact .refl h r
      simp only [StreamInner.pollWrite_eq]
      split_ifs with hreset hshut hbuf hclosed hzero hout
      · exact hsame
      · exact hsame
      · exact hsame
      · exact hsame
      · exact hsame
      · -- the outbound queue is gone
        have hout' : (S.ends r).out.closed = true := by simpa using hout
        have hcell' : { c with
            inner := { c.inner with state := c.inner.state.closeWrite.2 }
            writeLog := c.writeLog ++ buf.take 0 } = c.writeShut := by
          rw [List.take_zero, List.append_nil]
          rfl
        show Sim cfg ok S r ((S.ends r).update n { c with
          inner := { c.inner with state := c.inner.state.closeWrite.2 }
          writeLog := c.writeLog ++ buf.take 0 } .none)
        rw [hcell']
        exact Sim.update h hc rfl (.inl rfl) (fun i hi => by cases hi) rfl
          (fun m hm => by cases hm) (hok _ _) (.writeFailed hcell ho hout')
      · have hout' : (S.ends r).out.closed = false := by simpa using hout
        have hopen : c.inner.state.writeOpen = true := by simpa using hshut
        show Sim cfg ok S r ((S.ends r).update n (c.wrote buf)
          ⟨[.data c.id Flags.empty (buf.take (c.inner.writeSize buf))], []⟩)
        refine Sim.update h hc rfl (.inl rfl) (fun i hi => by cases hi) rfl ?_
          (hok _ _) (.wrote buf hcell ho hopen hout')
        · intro m hm
          obtain rfl := List.mem_singleton.mp hm
          show (buf.take (c.inner.writeSize buf)).length ≤ _
          have hsize : c.inner.writeSize buf ≤
              c.inner.config.maxFrameSize.toNat :=
            (Nat.min_le_left _ _).trans (Nat.min_le_right _ _)
          rw [(h.cellOk hc).config] at hsize
          rw [List.length_take]
          omega

theorem localReset_emit (h : c.inner.Ok) :
    c.inner.localReset.2.frames = c.resetMsgs.map (Msg.frame c.id) ∧
      ∀ i ∈ c.inner.localReset.2.closes, i = c.id := by
  unfold Cell.resetMsgs
  cases hr : c.inner.state.reset with
  | true =>
      rw [StreamInner.localReset_again h hr]
      simp [Emit.none]
  | false =>
      rw [StreamInner.localReset_first hr]
      cases hf : c.inner.finSent with
      | true => simp [Cell.id]
      | false => simp [Cell.id, Msg.frame]

theorem sim_pollShutdown (h : Good cfg S) (hok : Quiet ok) (n : Ref) :
    Sim cfg ok S r ((S.ends r).pollShutdown n) := by
  unfold Session.pollShutdown
  cases hh : (S.ends r).handleAt n with
  | none => exact .refl h r
  | some c =>
      obtain ⟨hc, ho⟩ := Session.handleAt_some hh
      cases hw : c.inner.state.writeOpen with
      | false =>
          simp only [StreamInner.localFin_shut hw]
          rw [update_same hc]
          exact .refl h r
      | true =>
          simp only [StreamInner.localFin_open (h.cellOk hc).ok hw]
          show Sim cfg ok S r ((S.ends r).update n c.finished
            ⟨[.fin c.id], []⟩)
          refine Sim.update h hc rfl (.inl rfl) (fun i hi => by cases hi) rfl
            ?_ (hok _ _) (.finished (h.cell hc) ho hw)
          intro m hm
          obtain rfl := List.mem_singleton.mp hm
          exact Nat.zero_le _

theorem sim_reset (h : Good cfg S) (hok : ∀ i L, ok i (.reset r) L)
    (n : Ref) : Sim cfg ok S r ((S.ends r).reset n) := by
  unfold Session.reset
  cases hh : (S.ends r).handleAt n with
  | none => exact .refl h r
  | some c =>
      obtain ⟨hc, ho⟩ := Session.handleAt_some hh
      obtain ⟨hframes, hcloses⟩ := localReset_emit (h.cellOk hc).ok
      show Sim cfg ok S r ((S.ends r).update n
        { c with inner := c.inner.localReset.1, userReset := true }
        c.inner.localReset.2)
      refine Sim.update h hc StreamInner.localReset_same.id (.inl rfl) ?_
        hframes ?_ (hok _ _) (.reset (h.cell hc) ho)
      · intro i hi
        refine ⟨hcloses i hi, ?_⟩
        simp [Cell.released, StreamInner.localReset_reset]
      · intro m hm
        rw [Cell.mem_resetMsgs hm]
        exact Nat.zero_le _

/-- Dropping a handle whose write half is closed. -/
theorem sim_dropShut (h : Good cfg S) (hok : Quiet ok)
    (hc : (S.ends r).streams[n]? = some c) (ho : c.owner = .handle)
    (hw : c.inner.state.writeOpen = false) :
    Sim cfg ok S r ((S.ends r).update n { c with owner := .dropped }
      ⟨[], [c.id]⟩) := by
  refine Sim.update h hc rfl (.inr (by simp [ho])) ?_ rfl
    (fun m hm => by cases hm) (hok _ _) (.dropped (h.cell hc) ho hw)
  intro i hi
  exact ⟨List.mem_singleton.mp hi, by simp [Cell.released, Cell.live, Owner.live]⟩

/-- Dropping a handle with the write half open sends the `FIN` first. -/
theorem sim_dropHandle (h : Good cfg S) (hok : Quiet ok) (n : Ref) :
    Sim cfg ok S r ((S.ends r).dropHandle n) := by
  have hfin := sim_pollShutdown (r := r) h hok n
  unfold Session.dropHandle
  unfold Session.pollShutdown at hfin
  cases hh : (S.ends r).handleAt n with
  | none => exact .refl h r
  | some c =>
      obtain ⟨hc, ho⟩ := Session.handleAt_some hh
      simp only [hh, StreamInner.onUserDrop_eq (h.cellOk hc).ok] at hfin ⊢
      have hlt := (List.getElem?_eq_some_iff.mp hc).1
      have hc₁ : ((S.put r ((S.ends r).update n
          { c with inner := c.inner.localFin.1 } c.inner.localFin.2)).ends
            r).streams[n]? = some { c with inner := c.inner.localFin.1 } := by
        rw [put_ends_self]
        exact List.getElem?_set_self hlt
      have hshut : c.inner.localFin.1.state.writeOpen = false := by
        cases hw : c.inner.state.writeOpen with
        | true => rw [StreamInner.localFin_open (h.cellOk hc).ok hw]
        | false => rw [StreamInner.localFin_shut hw, hw]
      have hdrop := sim_dropShut (hfin.good h) hok hc₁ ho hshut
      have hid : c.inner.localFin.1.id = c.inner.id :=
        (StreamInner.localFin_same (h.cellOk hc).ok).id
      rw [put_ends_self, update_update] at hdrop
      simp only [Cell.id, hid] at hdrop
      exact hfin.trans hdrop

end HandleCalls

/-! ## Opening and accepting -/

section OpenCalls

variable {cfg : Role → Config} {ok : StreamId → Ev → Pipe → Prop}
  {S : System} {r : Role} {n : Ref} {c : Cell}

theorem set_eq_update (s : Session) (n : Ref) (c : Cell) :
    { s with streams := s.streams.set n c } = s.update n c .none := by
  simp [Session.update, Emit.none]

theorem update_frames (s : Session) (n : Ref) (c : Cell) (fs : List Frame) :
    s.update n c ⟨fs, []⟩ =
      { s with streams := s.streams.set n c, out := s.out.sendAll fs } := by
  simp [Session.update]

/-- A stream is given up and leaves the registry, with `ms` sent before. -/
theorem sim_abandon (h : Good cfg S) {e : Ev} (ms : List Msg)
    (hc : (S.ends r).streams[n]? = some c) (ho : c.owner = .opening)
    (hlen : ∀ m ∈ ms, m.payload = []) (hok : ok c.id e (S.pipe c.id))
    (hstep : LocalStep (cfg r) c.id r ((S.pipe c.id).ends r) e
      { (S.pipe c.id).ends r with
        cell := some { c with owner := .gone }
        registered := false } ms) :
    Sim cfg ok S r
      { (S.ends r).update n { c with owner := .gone }
          ⟨ms.map (Msg.frame c.id), []⟩ with
        registry := (S.ends r).registry.remove c.id } := by
  have hid : ({ c with owner := .gone } : Cell).id = c.id := rfl
  have hget := StreamRegistry.get_remove (S.ends r).registry c.id
  constructor
  · refine Session.Wf.unregister ((h.wf r).update hc hid (fun _ => ?_)
      (fun hn => ?_) (fun i hi => by cases hi) ?_) ?_
    · simp [Cell.released, Cell.live, Owner.live]
    · have hq := (h.wf r).queued hc hn
      rw [ho] at hq
      cases hq
    · apply ours_frames
      intro m hm
      rw [hlen m hm]
      exact Nat.zero_le _
    · intro j m hj
      rw [hget] at hj
      split at hj
      · cases hj
      · exact hj
  · have hmsgs := msgs_update (s := S.ends r) (n := n)
      (c := { c with owner := .gone })
      (rfl : (⟨ms.map (Msg.frame c.id), []⟩ : Emit).frames = _)
    have hself := Session.endOf_update_self (h.wf r) hc hid
      ⟨ms.map (Msg.frame c.id), []⟩
    refine Moves.of_step hok hstep ?_ ?_ ?_ ?_
    · have hreg : (((S.ends r).registry.remove c.id).get c.id).isSome =
          false := by
        rw [hget, if_pos rfl]
        rfl
      have hcell := congrArg End.cell hself
      unfold Session.endOf at hcell ⊢
      simp only [Session.update, Chan.sendAll_closed] at hcell ⊢
      rw [hcell, hreg]
      rfl
    · have hself := hmsgs c.id
      rw [if_pos rfl] at hself
      exact hself
    · intro j hj
      have hother := Session.endOf_update_ne (h.wf r) hc hid
        ⟨ms.map (Msg.frame c.id), []⟩ hj
      have hcell := congrArg End.cell hother
      unfold Session.endOf at hcell ⊢
      simp only [Session.update, Chan.sendAll_closed] at hcell ⊢
      rw [hcell, hget, if_neg hj]
    · intro j hj
      have hother := hmsgs j
      rw [if_neg hj, List.append_nil] at hother
      exact hother

theorem sim_openPoll (h : Good cfg S) (hok : Quiet ok) (n : Ref) :
    Sim cfg ok S r ((S.ends r).openPoll n).2 := by
  unfold Session.openPoll
  cases hh : (S.ends r).pendingOpen n with
  | none => exact .refl h r
  | some c =>
      obtain ⟨hc, ho⟩ := Session.pendingOpen_some hh
      have hcell := h.cell hc
      have habandon : Sim cfg ok S r ((S.ends r).abandonOpen n c) := by
        have hsim := sim_abandon h [] hc ho (by simp) (hok _ _)
          (by simpa only [Bool.and_false] using
            LocalStep.abandoned false hcell (.inl ho))
        rw [List.map_nil, ← Emit.none, ← set_eq_update] at hsim
        exact hsim
      cases hwait : c.inner.waitAcked with
      | pending =>
          simp only [hwait]
          exact .refl h r
      | ready result =>
          cases result with
          | error e =>
              simp only [hwait]
              exact habandon
          | ok u =>
              simp only [hwait, set_eq_update]
              exact Sim.update h hc rfl (.inr (by simp [ho]))
                (fun i hi => by cases hi) rfl (fun m hm => by cases hm)
                (hok _ _)
                (.connected hcell ho (StreamInner.waitAcked_ok hwait))

theorem sim_openTimeout (h : Good cfg S) (hok : Quiet ok)
    (hrst : ∀ i L, ok i (.rst r) L) (n : Ref) :
    Sim cfg ok S r ((S.ends r).openTimeout n).2 := by
  have hpoll := sim_openPoll (r := r) h hok n
  unfold Session.openTimeout
  cases hh : (S.ends r).pendingOpen n with
  | none => exact .refl h r
  | some c =>
      obtain ⟨hc, ho⟩ := Session.pendingOpen_some hh
      cases hwait : c.inner.waitAcked with
      | ready result =>
          simp only [hwait]
          exact hpoll
      | pending =>
          simp only [hwait]
          have hsim := sim_abandon h [.rst] hc ho
            (by simp [Msg.payload]) (hrst _ _) (.timedOut (h.cell hc) ho)
          rw [update_frames] at hsim
          exact hsim

theorem sim_openCancel (h : Good cfg S) (hok : Quiet ok) (n : Ref) :
    Sim cfg ok S r ((S.ends r).openCancel n) := by
  unfold Session.openCancel
  cases hh : (S.ends r).pendingOpen n with
  | none => exact .refl h r
  | some c =>
      obtain ⟨hc, ho⟩ := Session.pendingOpen_some hh
      have hstep : LocalStep (cfg r) c.id r ((S.pipe c.id).ends r) .quiet
          { (S.pipe c.id).ends r with
            cell := some { c with owner := .gone } } [] := by
        simpa only [Bool.and_true] using
          LocalStep.abandoned true (h.cell hc) (.inl ho)
      simp only [set_eq_update]
      exact Sim.update h hc rfl (.inr (by simp [ho]))
        (fun i hi => by cases hi) rfl (fun m hm => by cases hm) (hok _ _)
        hstep

/-- The pipe's end knows whether the outbound queue is gone; then the session
is closing. -/
theorem Good.out_open (h : Good cfg S) (hcl : (S.ends r).isClosing = false) :
    (S.ends r).out.closed = false := by
  by_contra hout
  rw [Bool.not_eq_false] at hout
  have hclosing := ((h.pipes 0).sound.ends r).outClosing hout
  have hcl' : ((S.pipe 0).ends r).closing = false := hcl
  rw [hclosing] at hcl'
  cases hcl'

/-- A queued stream gets its handle, and the peer its `ACK`. -/
theorem sim_accepted (h : Good cfg S) (hok : Quiet ok)
    (hc : (S.ends r).streams[n]? = some c) (hq : c.owner = .queued)
    (hn : n ∉ (S.ends r).accept.queue)
    (hout : (S.ends r).out.closed = false) :
    Sim cfg ok S r ((S.ends r).update n { c with owner := .handle }
      ⟨[.ack c.id], []⟩) := by
  have hstep : LocalStep (cfg r) c.id r ((S.pipe c.id).ends r) .quiet _ _ :=
    .accepted (h.cell hc) hq hout
  refine ⟨(h.wf r).update hc rfl (fun hrel => ?_) (fun hmem => absurd hmem hn)
    (fun i hi => by cases hi) (ours_frames [.ack] (by simp [Msg.payload])),
    Moves.update (h.wf r) hc rfl rfl (hok _ _) hstep⟩
  simpa [Cell.released, Cell.live, Owner.live, hq] using hrel

/-- A stream is taken off the accept queue. -/
theorem sim_acceptPoll (h : Good cfg S) (hok : Quiet ok) :
    Sim cfg ok S r (S.ends r).acceptPoll.2 := by
  unfold Session.acceptPoll
  split
  · exact .refl h r
  · rename_i hcl
    rw [Bool.not_eq_true] at hcl
    have hout := h.out_open hcl
    cases hqueue : (S.ends r).accept.queue with
    | nil => exact .refl h r
    | cons n rest =>
        have hwf := h.wf r
        have hnodup := hwf.acceptNodup
        rw [hqueue, List.nodup_cons] at hnodup
        obtain ⟨c, hc, hq⟩ := hwf.acceptQueued n
          (by rw [hqueue]; exact List.mem_cons_self ..)
        -- first the reference leaves the queue, then the stream is taken up
        have hpop : Sim cfg ok S r
            { S.ends r with
              accept := { (S.ends r).accept with queue := rest } } := by
          refine ⟨{ hwf with acceptNodup := hnodup.2, acceptQueued := ?_ },
            .of_same (fun _ => rfl) fun _ => rfl⟩
          intro m hm
          exact hwf.acceptQueued m
            (by rw [hqueue]; exact List.mem_cons_of_mem _ hm)
        have htake : Sim cfg ok _ r _ := sim_accepted (n := n) (c := c)
          (hpop.good h) hok (by rw [put_ends_self]; exact hc) hq
          (by rw [put_ends_self]; exact hnodup.1)
          (by rw [put_ends_self]; exact hout)
        rw [put_ends_self] at htake
        have hboth := hpop.trans htake
        rw [update_frames] at hboth
        simp only [hc, hout, Bool.false_eq_true, if_false]
        exact hboth

/-- The next id is one no stream has. -/
theorem Good.next_fresh (h : Good cfg S) {d : Cell}
    (hd : d ∈ (S.ends r).streams) : d.id ≠ (S.ends r).idAlloc.next := by
  intro hid
  have hwf := h.wf r
  have hown := hwf.nextOwned
  rw [← hid] at hown
  have hlt := hwf.fresh d hd hown
  rw [hid] at hlt
  exact Nat.lt_irrefl _ hlt

/-- The session after a successful allocation. -/
theorem wf_allocate {s : Session} {cfg : Config} (h : s.Wf cfg r)
    {id : StreamId} {idAlloc : StreamIdAllocator}
    (halloc : s.idAlloc.allocate = some (id, idAlloc)) :
    ({ s with idAlloc := idAlloc } : Session).Wf cfg r := by
  obtain ⟨rfl, hnext⟩ := StreamIdAllocator.allocate_some halloc
  refine { h with nextOwned := Role.owns_add_two h.nextOwned hnext, fresh := ?_ }
  intro c hc hown
  have hlt := h.fresh c hc hown
  show c.id.toNat < idAlloc.next.toNat
  omega

/-- The part of `open()` after the insertion. -/
theorem sim_opened (h : Good cfg S) {i : StreamId} {s' : Session}
    {idAlloc : StreamIdAllocator} {registry : StreamRegistry}
    (hi : i = (S.ends r).idAlloc.next) (hok : ok i .quiet (S.pipe i))
    (hout : (S.ends r).out.closed = false)
    (hwf : ({ S.ends r with idAlloc := idAlloc } : Session).Wf (cfg r) r)
    (hnext : idAlloc.next.toNat = (S.ends r).idAlloc.next.toNat + 2)
    (hreg : ∀ j, registry.get j =
      if j = i then some (S.ends r).streams.length
      else (S.ends r).registry.get j)
    (hs' : s' = { S.ends r with
      idAlloc := idAlloc
      registry := registry
      streams := (S.ends r).streams ++
        [Cell.new (StreamInner.new i .locally (cfg r)) .opening]
      out := (S.ends r).out.send (.syn i) }) :
    Sim cfg ok S r s' := by
  have hnew : ∀ d ∈ (S.ends r).streams, d.id ≠ i := by
    rw [hi]
    exact fun d hd => h.next_fresh hd
  have hown : r.owns i = true := by
    rw [hi]
    exact (h.wf r).nextOwned
  have hcell : ((S.pipe i).ends r).cell = none := Keyed.lookup_none.mpr hnew
  have hpost : ((S.pipe i).ends r).post [.syn] = [.syn] :=
    if_neg (show ¬ (S.ends r).out.closed = true by simp [hout])
  have hqueue : s'.out.queue = (S.ends r).out.queue ++ [.syn i] := by
    rw [hs', Chan.send_eq_sendAll, Chan.sendAll_queue, hout]
    rfl
  have hend : ∀ j, s'.endOf j = _ := Session.endOf_create (s := S.ends r)
    (c := Cell.new (StreamInner.new i .locally (cfg r)) .opening)
    (by rw [hs']) (by rw [hs']; exact hreg) hnew (by rw [hs'])
    (by rw [hs']; exact Chan.send_closed _ _) (by rw [hs']) (by rw [hs'])
  constructor
  · have hcreate := hwf.create
      (c := Cell.new (StreamInner.new i .locally (cfg r)) .opening)
      hnew hreg (fun _ => by
        show i.toNat < idAlloc.next.toNat
        rw [hi]
        omega)
    rw [hs']
    exact hcreate.enqueue (.msg i .syn (Nat.zero_le _))
  · refine Moves.of_step hok (.opened hown hcell hout) ?_ ?_ ?_ ?_
    · exact (hend i).trans (if_pos rfl)
    · rw [hpost, hqueue, msgs_append]
      exact congrArg _ (msgs_frames_self i [.syn])
    · exact fun j hj => (hend j).trans (if_neg hj)
    · intro j hj
      have hnone := msgs_frames_ne (Ne.symm hj) [.syn]
      rw [hqueue, msgs_append]
      exact (congrArg _ hnone).trans (List.append_nil _)

/-- `open()` allocates an id nobody used, so the insertion succeeds, and the
`SYN` is sent. -/
theorem sim_openStart (h : Good cfg S) (hok : Quiet ok) :
    Sim cfg ok S r (S.ends r).openStart.2 := by
  have hwf := h.wf r
  unfold Session.openStart
  split
  · exact .refl h r
  · rename_i hcl
    split
    · exact .refl h r
    · cases halloc : (S.ends r).idAlloc.allocate with
      | none => exact .refl h r
      | some p =>
          obtain ⟨id, idAlloc⟩ := p
          have hcl' : (S.ends r).isClosing = false := by
            cases hc : (S.ends r).isClosing <;> simp_all
          have hout := h.out_open hcl'
          have hwf₁ := wf_allocate hwf halloc
          obtain ⟨rfl, hnext⟩ := StreamIdAllocator.allocate_some halloc
          cases hins : (S.ends r).registry.insert (S.ends r).idAlloc.next
              (S.ends r).streams.length with
          | error e =>
              exfalso
              apply StreamRegistry.insert_error hins
              cases hget : (S.ends r).registry.get
                  (S.ends r).idAlloc.next with
              | none => rfl
              | some m =>
                  obtain ⟨d, hd, hid⟩ := hwf.entries _ m hget
                  exact absurd hid (h.next_fresh (List.mem_of_getElem? hd))
          | ok registry =>
              obtain ⟨-, hreg⟩ := StreamRegistry.insert_ok hins
              simp only [hins, hout, Bool.false_eq_true, if_false]
              exact sim_opened h rfl (hok _ _) hout hwf₁ hnext hreg
                (by simp only [hwf.config])

end OpenCalls

/-! ## Shutting down, and the tasks other than reader and writer -/

section Tasks

variable {cfg : Role → Config} {ok : StreamId → Ev → Pipe → Prop}
  {S : System} {r : Role}

/-- A change that every pipe sees, and that sends nothing. -/
theorem Moves.of_silent {s : Session}
    (hstep : ∀ i, ∃ e, ok i e (S.pipe i) ∧
      LocalStep (cfg r) i r ((S.pipe i).ends r) e (s.endOf i) [])
    (hout : ∀ i, msgs i s.out.queue = msgs i (S.ends r).out.queue) :
    Moves cfg ok S (S.put r s) := by
  intro i
  obtain ⟨e, hok, hstep⟩ := hstep i
  have hpost : ((S.pipe i).ends r).post [] = [] := by simp [End.post]
  have hsent : msgs i s.out.queue =
      msgs i (S.ends r).out.queue ++ ((S.pipe i).ends r).post [] := by
    rw [hpost, List.append_nil]
    exact hout i
  rw [pipe_put_send S r hsent]
  exact .single hok (.act r hstep)

theorem sim_initiateShutdown (h : Good cfg S)
    (hok : ∀ i L, ok i (.shutdown r) L) (code : ErrorCode) :
    Sim cfg ok S r ((S.ends r).initiateShutdown code) := by
  refine ⟨(h.wf r).initiateShutdown code, ?_⟩
  cases hcl : (S.ends r).isClosing with
  | true =>
      rw [Session.initiateShutdown_again hcl]
      exact .of_same (fun _ => rfl) fun _ => rfl
  | false =>
      refine .of_silent (fun i => ⟨_, hok i _, ?_⟩)
        (Session.msgs_initiateShutdown (S.ends r) code)
      rw [Session.endOf_initiateShutdown (h.wf r) hcl]
      exact .shutdown hcl

theorem sim_readerDone (h : Good cfg S) (hok : Quiet ok)
    (hcl : (S.ends r).isClosing = true) (errors : List Error) :
    Sim cfg ok S r
      { S.ends r with readerDone := true, readerErrors := errors } := by
  refine ⟨{ h.wf r with }, ?_⟩
  exact .of_silent (fun i => ⟨_, hok i _, .readerDone hcl⟩) fun _ => rfl

theorem sim_readerStop (h : Good cfg S) (hok : Quiet ok) :
    Sim cfg ok S r (S.ends r).readerStop := by
  unfold Session.readerStop
  split
  · rename_i hsd
    exact sim_readerDone h hok ((h.wf r).shutdownClosing hsd) _
  · exact .refl h r

theorem sim_readerEof (h : Good cfg S) (hok : Quiet ok)
    (hsd : ∀ i L, ok i (.shutdown r) L) :
    Sim cfg ok S r (S.ends r).readerEof := by
  have hfirst := sim_initiateShutdown h hsd .normal
  have hcl : ((S.put r ((S.ends r).initiateShutdown .normal)).ends
      r).isClosing = true := by
    rw [put_ends_self]
    exact Session.initiateShutdown_isClosing _ _
  have hsecond := sim_readerDone (hfirst.good h) hok hcl
    ((S.put r ((S.ends r).initiateShutdown .normal)).ends r).readerErrors
  rw [put_ends_self] at hsecond
  exact hfirst.trans hsecond

/-- The closer takes out a stream that is released. -/
theorem sim_closerNext (h : Good cfg S)
    (hok : ∀ i rest, (S.ends r).closer.queue = i :: rest →
      ok i (.remove r) (S.pipe i)) :
    Sim cfg ok S r (S.ends r).closerNext := by
  unfold Session.closerNext
  cases hqueue : (S.ends r).closer.queue with
  | nil => exact .refl h r
  | cons i rest =>
      have hwf := h.wf r
      have hget := StreamRegistry.get_remove (S.ends r).registry i
      obtain ⟨c, hc, rfl, hrel⟩ := hwf.closerReleased i
        (by rw [hqueue]; exact List.mem_cons_self ..)
      constructor
      · have hpop : Session.Wf (cfg r) r
            { S.ends r with
              closer := { (S.ends r).closer with queue := rest } } :=
          { hwf with
            closerReleased := fun j hj => hwf.closerReleased j
              (by rw [hqueue]; exact List.mem_cons_of_mem _ hj) }
        refine hpop.unregister fun j n hj => ?_
        rw [hget] at hj
        split at hj
        · cases hj
        · exact hj
      · have hpost : ((S.pipe c.id).ends r).post [] = [] := by
          simp [End.post]
        refine Moves.of_step (hok c.id rest hqueue)
          (.removed (Keyed.lookup_mem hwf.distinct hc) hrel) ?_ ?_ ?_ ?_
        · simp only [Session.endOf, hget, if_true, Option.isSome_none]
          rfl
        · rw [hpost, List.append_nil]
        · intro j hj
          simp only [Session.endOf, hget, if_neg hj]
        · exact fun _ _ => rfl

theorem sim_closerStop (h : Good cfg S) :
    Sim cfg ok S r (S.ends r).closerStop := by
  unfold Session.closerStop
  split
  · refine ⟨{ h.wf r with closerReleased := ?_ },
      .of_same (fun _ => rfl) fun _ => rfl⟩
    exact fun i hi => by cases hi
  · exact .refl h r

theorem sim_writerStop (h : Good cfg S) :
    Sim cfg ok S r (S.ends r).writerStop := by
  unfold Session.writerStop
  split
  · rename_i hstop
    have hcl := (h.wf r).shutdownClosing hstop.2
    exact ⟨{ h.wf r with writerClosing := fun _ => hcl },
      .of_same (fun _ => rfl) fun _ => rfl⟩
  · exact .refl h r

/-- No pipe sees the keepalive task's own state. -/
theorem sim_keepalive (h : Good cfg S) (keepalive : Keepalive) :
    Sim cfg ok S r { S.ends r with keepalive := keepalive } :=
  ⟨{ h.wf r with }, .of_same (fun _ => rfl) fun _ => rfl⟩

/-- No pipe sees pings. -/
theorem sim_enqueue (h : Good cfg S) {f : Frame}
    (hf : Frame.Ours (cfg r).maxFrameSize.toNat (S.ends r).isClosing f)
    (hnone : ∀ i, f.msg? i = none) :
    Sim cfg ok S r ((S.ends r).enqueue f) := by
  refine ⟨(h.wf r).enqueue hf, .of_same
    (Session.endOf_enqueue (S.ends r) f) fun i => ?_⟩
  show msgs i ((S.ends r).out.sendAll [f]).queue = _
  rw [Chan.sendAll_queue]
  split <;> simp [msgs, hnone i]

theorem sim_keepaliveTick (h : Good cfg S) :
    Sim cfg ok S r (S.ends r).keepaliveTick := by
  unfold Session.keepaliveTick
  split
  · dsimp only
    split
    · exact sim_keepalive h _
    · have hping : Sim cfg ok S r _ := sim_enqueue h
        (.ping ((S.ends r).keepalive.nonce + 1)) fun _ => rfl
      have hset : Sim cfg ok _ r _ := sim_keepalive (hping.good h)
        { (S.ends r).keepalive with
          nonce := (S.ends r).keepalive.nonce + 1, awaiting := true }
      rw [put_ends_self] at hset
      exact hping.trans hset
  · exact .refl h r

theorem sim_keepalivePong (h : Good cfg S) :
    Sim cfg ok S r (S.ends r).keepalivePong := by
  unfold Session.keepalivePong
  split
  · cases (S.ends r).keepalive.pongs.queue with
    | nil =>
        simp only
        split
        · exact sim_keepalive h _
        · exact .refl h r
    | cons nonce rest => exact sim_keepalive h _
  · exact .refl h r

theorem sim_keepaliveTimeout (h : Good cfg S)
    (hok : (S.ends r).keepaliveTimeout.isClosing = true →
      ∀ i L, ok i (.shutdown r) L) :
    Sim cfg ok S r (S.ends r).keepaliveTimeout := by
  unfold Session.keepaliveTimeout at hok ⊢
  split
  · rename_i hwait
    rw [if_pos hwait] at hok
    have hfirst := sim_initiateShutdown h
      (hok (Session.initiateShutdown_isClosing _ _)) .timeout
    have hsecond : Sim cfg ok _ r _ := sim_keepalive (hfirst.good h)
      (Session.keepaliveExit
        ((S.ends r).initiateShutdown .timeout).keepalive)
    rw [put_ends_self] at hsecond
    exact hfirst.trans hsecond
  · exact .refl h r

theorem sim_keepaliveStop (h : Good cfg S) :
    Sim cfg ok S r (S.ends r).keepaliveStop := by
  unfold Session.keepaliveStop
  split
  · exact sim_keepalive h _
  · exact .refl h r

end Tasks

/-! ## The writer -/

section Writer

variable {cfg : Role → Config} {ok : StreamId → Ev → Pipe → Prop}
  {S : System} {r : Role}

/-- Replace a session and extend what it has put on the wire. -/
def putWrite (S : System) (r : Role) (s : Session) (fs : List Frame) :
    System where
  ends := Function.update S.ends r s
  wire := Function.update S.wire r (S.wire r ++ fs)

theorem putWrite_nil (S : System) (r : Role) (s : Session) :
    S.putWrite r s [] = S.put r s := by
  simp [putWrite, put]

theorem writerTurn_eq (S : System) (r : Role) :
    S.writerTurn r = S.putWrite r (S.ends r).writerNext.2
      (S.ends r).writerNext.1.toList := rfl

theorem pipe_putWrite (S : System) (r : Role) (s : Session)
    (fs : List Frame) (i : StreamId) :
    (S.putWrite r s fs).pipe i =
      (S.pipe i).set r (s.endOf i) (msgs i (S.wire r ++ fs ++ s.out.queue))
        ((S.pipe i).chan r.peer) := by
  apply Pipe.ext_sides r <;> simp [pipe, putWrite]

/-- A system with a frame moved from the queue to the wire. -/
theorem moves_written {s : Session} {f : Frame} {rest : List Frame}
    (hend : ∀ i, s.endOf i = (S.ends r).endOf i)
    (hqueue : (S.ends r).out.queue = f :: rest) (hs : s.out.queue = rest) :
    Moves cfg ok S (S.putWrite r s [f]) := by
  intro i
  have hsame : (S.putWrite r s [f]).pipe i = S.pipe i := by
    rw [pipe_putWrite, hs, List.append_assoc, List.singleton_append, ← hqueue,
      hend i]
    apply Pipe.ext_sides r <;> simp [pipe]
  rw [hsame]
  exact .refl _

/-- A turn of the writer: the system stays good and every pipe moves. -/
structure Turn (cfg : Role → Config) (ok : StreamId → Ev → Pipe → Prop)
    (S S' : System) : Prop where
  wf : ∀ r, (S'.ends r).Wf (cfg r) r
  wire : ∀ r, ∀ f ∈ S'.wire r,
    Frame.Ours (FrameCodec.new (cfg r).maxFrameSize).maxPayload.toNat
      (S'.ends r).isClosing f
  moves : Moves cfg ok S S'

theorem Turn.good {S' : System} (h : Good cfg S) (ht : Turn cfg ok S S') :
    Good cfg S' where
  wf := ht.wf
  wire := ht.wire
  pipes := fun i =>
    (ht.moves i).invariant (fun _ _ _ hinv _ hstep => hinv.step hstep)
      (h.pipes i)

theorem Sim.turn (h : Good cfg S) {s : Session} (hs : Sim cfg ok S r s) :
    Turn cfg ok S (S.put r s) :=
  ⟨(hs.good h).wf, (hs.good h).wire, hs.moves⟩

/-- The session with another outbound queue. -/
def popOut (s : Session) (rest : List Frame) : Session :=
  { s with out := { s.out with queue := rest } }

/-- The writer in its select loop, with a frame to write. -/
theorem writerNext_running {s : Session} {f : Frame} {rest : List Frame}
    (hphase : s.writer = .running) (hqueue : s.out.queue = f :: rest) :
    s.writerNext =
      if s.codec.maxPayload.toNat < f.payloadLen then
        (none,
          { (popOut s rest).initiateShutdown .internalError with
            writer := .draining
            encodeFailed := true })
      else (some f, popOut s rest) := by
  have henc := FrameCodec.encode_eq s.codec f []
  unfold Session.writerNext
  split
  case h_2 g gs _ hgs =>
    obtain ⟨rfl, rfl⟩ := List.cons.inj (hqueue.symm.trans hgs)
    by_cases hlen : s.codec.maxPayload.toNat < f.payloadLen
    · rw [if_pos hlen] at henc ⊢
      dsimp only [Session.codec] at henc ⊢
      rw [henc]
      rfl
    · rw [if_neg hlen] at henc ⊢
      dsimp only [Session.codec] at henc ⊢
      rw [henc]
      rfl
  all_goals simp_all

/-- The writer emptying its queue. -/
theorem writerNext_draining {s : Session} {f : Frame} {rest : List Frame}
    (hphase : s.writer = .draining) (hqueue : s.out.queue = f :: rest) :
    s.writerNext =
      if s.codec.maxPayload.toNat < f.payloadLen then
        (none,
          { popOut s rest with writer := .flushed, encodeFailed := true })
      else (some f, popOut s rest) := by
  have henc := FrameCodec.encode_eq s.codec f []
  unfold Session.writerNext
  split
  case h_4 g gs _ hgs =>
    obtain ⟨rfl, rfl⟩ := List.cons.inj (hqueue.symm.trans hgs)
    by_cases hlen : s.codec.maxPayload.toNat < f.payloadLen
    · rw [if_pos hlen] at henc ⊢
      dsimp only [Session.codec] at henc ⊢
      rw [henc]
      rfl
    · rw [if_neg hlen] at henc ⊢
      dsimp only [Session.codec] at henc ⊢
      rw [henc]
      rfl
  all_goals simp_all

theorem wf_pop {s : Session} {cfg : Config} (h : s.Wf cfg r) {f : Frame}
    {rest : List Frame} (hqueue : s.out.queue = f :: rest) :
    (popOut s rest).Wf cfg r :=
  { h with
    out := fun g hg =>
      h.out g (by rw [hqueue]; exact List.mem_cons_of_mem _ hg) }

/-- The codec accepts the head of the queue. -/
theorem turn_written (h : Good cfg S) {f : Frame} {rest : List Frame}
    (hqueue : (S.ends r).out.queue = f :: rest)
    (hfits : ¬ (S.ends r).codec.maxPayload.toNat < f.payloadLen) :
    Turn cfg ok S (S.putWrite r (popOut (S.ends r) rest) [f]) := by
  refine ⟨?_, ?_, moves_written (fun _ => rfl) hqueue rfl⟩
  · rw [Role.forall_iff r]
    simp only [putWrite, Function.update_self, ne_eq, Role.peer_ne,
      not_false_eq_true, Function.update_of_ne]
    exact ⟨wf_pop (h.wf r) hqueue, h.wf r.peer⟩
  · rw [Role.forall_iff r]
    simp only [putWrite, Function.update_self, ne_eq, Role.peer_ne,
      not_false_eq_true, Function.update_of_ne]
    refine ⟨fun g hg => ?_, h.wire r.peer⟩
    rcases List.mem_append.mp hg with hg | hg
    · exact h.wire r g hg
    · obtain rfl := List.mem_singleton.mp hg
      have hours := (h.wf r).out g (by rw [hqueue]; exact List.mem_cons_self ..)
      refine hours.weaken ?_ fun hcl => hcl
      unfold Session.codec at hfits
      rw [(h.wf r).config] at hfits
      exact Nat.not_lt.mp hfits

/-- While a session closes, its writer may lose messages: the codec refused
the frame at the head of the queue. -/
theorem turn_lost (h : Good cfg S) (hok : Quiet ok) {f : Frame}
    {rest : List Frame} (hqueue : (S.ends r).out.queue = f :: rest)
    (hcl : (S.ends r).isClosing = true) (phase : WriterPhase) :
    Turn cfg ok S (S.put r
      { popOut (S.ends r) rest with
        writer := phase
        encodeFailed := true }) := by
  refine Sim.turn h ⟨{ wf_pop (h.wf r) hqueue with
    writerClosing := fun _ => hcl }, fun i => ?_⟩
  rw [pipe_put]
  refine .single (hok i _) (PipeStep.lost r hcl ?_)
  show (msgs i (S.wire r ++ rest)).Sublist
    (msgs i (S.wire r ++ (S.ends r).out.queue))
  rw [hqueue, msgs_append, msgs_append]
  apply List.Sublist.append_left
  exact List.Sublist.filterMap _ (List.sublist_cons_self f rest)

/-- The writer returns. -/
theorem turn_exited (h : Good cfg S) (hok : Quiet ok)
    (hcl : (S.ends r).isClosing = true) :
    Turn cfg ok S (S.put r
      { S.ends r with writer := .exited, out := (S.ends r).out.close }) := by
  refine Sim.turn h ⟨{ h.wf r with
    out := fun f hf => by cases hf
    writerClosing := fun _ => hcl }, fun i => ?_⟩
  rw [pipe_put]
  refine .single (hok i _) (PipeStep.cut r hcl ?_)
  show msgs i (S.wire r ++ []) <+: msgs i (S.wire r ++ (S.ends r).out.queue)
  rw [List.append_nil, msgs_append]
  exact List.prefix_append _ _

theorem Turn.trans {S' S'' : System} (h₁ : Turn cfg ok S S')
    (h₂ : Turn cfg ok S' S'') : Turn cfg ok S S'' :=
  ⟨h₂.wf, h₂.wire, h₁.moves.trans h₂.moves⟩

/-- The codec refuses the head of the queue in the select loop: a shutdown
begins, and the frame is lost. -/
theorem turn_refused (h : Good cfg S) (hok : Quiet ok)
    (hsd : ∀ i L, ok i (.shutdown r) L) {f : Frame} {rest : List Frame}
    (hqueue : (S.ends r).out.queue = f :: rest) :
    Turn cfg ok S (S.put r
      { (popOut (S.ends r) rest).initiateShutdown .internalError with
        writer := .draining
        encodeFailed := true }) := by
  cases hcl : (S.ends r).isClosing with
  | true =>
      rw [Session.initiateShutdown_again (by exact hcl)]
      exact turn_lost h hok hqueue hcl _
  | false =>
      have hout := h.out_open hcl
      have hfirst := sim_initiateShutdown h hsd .internalError
      have hqueue₁ : ((S.put r ((S.ends r).initiateShutdown
          .internalError)).ends r).out.queue =
            f :: (rest ++ [.goAway .internalError]) := by
        rw [put_ends_self, Session.initiateShutdown_eq hcl]
        simp [Chan.send, hout, hqueue]
      have hsecond := turn_lost (r := r) (hfirst.good h) hok hqueue₁
        (by
          rw [put_ends_self]
          exact Session.initiateShutdown_isClosing _ _) .draining
      rw [put_put, put_ends_self] at hsecond
      have hboth := (hfirst.turn h).trans hsecond
      rw [Session.initiateShutdown_eq hcl] at hboth
      rw [Session.initiateShutdown_eq (by exact hcl)]
      simpa [popOut, Chan.send, hout] using hboth

/-- **One turn of the writer.** -/
theorem turn_writer (h : Good cfg S) (hok : Quiet ok)
    (hsd : ((S.writerTurn r).ends r).isClosing = true →
      ∀ i L, ok i (.shutdown r) L) :
    Turn cfg ok S (S.writerTurn r) := by
  have hrefl : Turn cfg ok S (S.put r (S.ends r)) := (Sim.refl h r).turn h
  rw [writerTurn_eq] at hsd ⊢
  cases hphase : (S.ends r).writer with
  | running =>
      cases hqueue : (S.ends r).out.queue with
      | nil =>
          have hnext : (S.ends r).writerNext = (none, S.ends r) := by
            simp only [Session.writerNext, hphase, hqueue]
          rw [hnext, Option.toList_none, putWrite_nil]
          exact hrefl
      | cons f rest =>
          rw [writerNext_running hphase hqueue] at hsd ⊢
          by_cases hlen : (S.ends r).codec.maxPayload.toNat < f.payloadLen
          · rw [if_pos hlen, Option.toList_none, putWrite_nil] at hsd ⊢
            refine turn_refused h hok (hsd ?_) hqueue
            rw [put_ends_self]
            exact Session.initiateShutdown_isClosing _ _
          · rw [if_neg hlen]
            exact turn_written h hqueue hlen
  | draining =>
      have hcl := (h.wf r).writerClosing (by rw [hphase]; decide)
      cases hqueue : (S.ends r).out.queue with
      | nil =>
          have hnext : (S.ends r).writerNext =
              (none, { S.ends r with writer := .flushed }) := by
            unfold Session.writerNext
            rw [hphase, hqueue]
          have hsim : Sim cfg ok S r { S.ends r with writer := .flushed } :=
            ⟨{ h.wf r with writerClosing := fun _ => hcl },
              .of_same (fun _ => rfl) fun _ => rfl⟩
          rw [hnext, Option.toList_none, putWrite_nil]
          exact hsim.turn h
      | cons f rest =>
          rw [writerNext_draining hphase hqueue]
          by_cases hlen : (S.ends r).codec.maxPayload.toNat < f.payloadLen
          · rw [if_pos hlen, Option.toList_none, putWrite_nil]
            exact turn_lost h hok hqueue hcl _
          · rw [if_neg hlen]
            exact turn_written h hqueue hlen
  | flushed =>
      have hcl := (h.wf r).writerClosing (by rw [hphase]; decide)
      have hnext : (S.ends r).writerNext =
          (none, { S.ends r with
            writer := .exited, out := (S.ends r).out.close }) := by
        unfold Session.writerNext
        rw [hphase]
      rw [hnext, Option.toList_none, putWrite_nil]
      exact turn_exited h hok hcl
  | exited =>
      have hnext : (S.ends r).writerNext = (none, S.ends r) := by
        unfold Session.writerNext
        rw [hphase]
      rw [hnext, Option.toList_none, putWrite_nil]
      exact hrefl

end Writer

end System

end NetMux
