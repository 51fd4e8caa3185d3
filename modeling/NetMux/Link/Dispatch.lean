import NetMux.Link.Simulation

/-!
# The reader, and the steps of a whole system

What the reader does with each message of a registered stream, of an unknown
stream, and with a `SYN`; then every pipe's view of it.  The main results are
`Good.turn`, which covers every action of a system, and its consequences:
**a system stays good** (`good_after`), and each of its steps is a path of
steps of every pipe, with the events limited by what the action permits.
-/

namespace NetMux

open Lib Lib.Run

/-! ## Messages at a session -/

namespace Session

variable {s : Session} {i : StreamId} {n : Ref} {c : Cell}

/-- What a message does to the stream it reaches. -/
def applyMsg (inner : StreamInner) : Msg → StreamInner × Emit
  | .syn => (inner, .none)
  | .ack => (inner.markAcked, .none)
  | .data payload => (inner.pushData payload, .none)
  | .fin => (inner.remoteFin, .none)
  | .rst => inner.remoteReset
  | .credit delta => (inner.grantSendCredit delta, .none)

/-- The cell after a message. -/
def hear (c : Cell) (m : Msg) : Cell :=
  { c with inner := (applyMsg c.inner m).1 }

/-- Data for a stream that no longer receives. -/
def tooLate (inner : StreamInner) (m : Msg) : Prop :=
  m.payload ≠ [] ∧ inner.canRecv = false

theorem pushData_nil (inner : StreamInner) : inner.pushData [] = inner := rfl

/-- **A message for a registered stream.** -/
theorem dispatch_found (hi : i ≠ 0) (hf : s.find i = some (n, c)) {m : Msg}
    (hm : m ≠ .syn) (hlate : ¬ tooLate c.inner m) :
    s.dispatch (m.frame i) =
      (.ok (), s.update n (hear c m) (applyMsg c.inner m).2) := by
  unfold hear
  cases m with
  | syn => exact absurd rfl hm
  | ack =>
      simp +decide [dispatch, Msg.frame, Frame.ack, handleData, hi,
        handleStream, hf, deliverTo, applyMsg]
  | data payload =>
      have hopen : payload ≠ [] → c.inner.canRecv = true := by
        intro hne
        by_contra hc
        rw [Bool.not_eq_true] at hc
        exact hlate ⟨hne, hc⟩
      by_cases hp : payload = []
      · subst hp
        simp +decide [dispatch, Msg.frame, handleData, hi, handleStream, hf,
          deliverTo, applyMsg, pushData_nil]
      · simp +decide [dispatch, Msg.frame, handleData, hi, handleStream, hf,
          deliverTo, applyMsg, hp, hopen hp]
  | fin =>
      simp +decide [dispatch, Msg.frame, Frame.fin, handleData, hi,
        handleStream, hf, deliverTo, applyMsg]
  | rst =>
      simp +decide [dispatch, Msg.frame, Frame.rst, handleData, hi,
        handleStream, hf, deliverTo, applyMsg]
  | credit delta =>
      simp [dispatch, Msg.frame, Frame.mkWindowUpdate, handleWindowUpdate, hf,
        applyMsg]

/-- Data behind a closed read half is a protocol error and resets the
stream. -/
theorem dispatch_late (hi : i ≠ 0) (hf : s.find i = some (n, c)) {m : Msg}
    (hlate : tooLate c.inner m) :
    s.dispatch (m.frame i) =
      (.error (.protocol "data after FIN"),
        s.update n { c with inner := c.inner.localReset.1 }
          c.inner.localReset.2) := by
  obtain ⟨hne, hc⟩ := hlate
  cases m with
  | data payload =>
      have hp : payload ≠ [] := hne
      simp +decide [dispatch, Msg.frame, handleData, hi, handleStream, hf,
        deliverTo, hp, hc]
  | _ => exact absurd rfl hne

/-- **A message for an unknown stream** is answered with `RST`, unless it
is an `ACK`, a `RST` or credit. -/
theorem dispatch_unknown (hi : i ≠ 0) (hf : s.find i = none) {m : Msg}
    (hm : m ≠ .syn) :
    s.dispatch (m.frame i) =
      (.ok (), if m.wantsStream then s.enqueue (.rst i) else s) := by
  cases m with
  | syn => exact absurd rfl hm
  | ack =>
      simp +decide [dispatch, Msg.frame, Frame.ack, handleData, hi,
        handleStream, hf]
  | data payload =>
      simp +decide [dispatch, Msg.frame, handleData, hi, handleStream, hf,
        Msg.wantsStream]
  | fin =>
      simp +decide [dispatch, Msg.frame, Frame.fin, handleData, hi,
        handleStream, hf]
  | rst =>
      simp +decide [dispatch, Msg.frame, Frame.rst, handleData, hi,
        handleStream, hf]
  | credit delta =>
      simp [dispatch, Msg.frame, Frame.mkWindowUpdate, handleWindowUpdate, hf,
        Msg.wantsStream]

/-- A `SYN` that is refused: the peer has gone away, or the registry is
full. -/
theorem dispatch_syn_refused (hi : i ≠ 0) (hown : s.role.owns i = false)
    (hfull : s.peerGone = true ∨ s.config.maxStreams ≤ s.registry.len) :
    s.dispatch (Msg.syn.frame i) = (.ok (), s.enqueue (.rst i)) := by
  have hsyn : s.handleSyn i = .inl (.ok (), s.enqueue (.rst i)) := by
    unfold handleSyn
    rw [hown]
    rcases hfull with hgone | hmax
    · simp [hgone]
    · simp [hmax]
  simp +decide [dispatch, Msg.frame, Frame.syn, handleData, hi, hsyn]

/-- What the reader loop makes of the result of a dispatch. -/
def settle : Except Error Unit × Session → Session
  | (.ok _, s) => s
  | (.error e, s) => s.readerFail e

/-- What becomes of a frame with defined flags. -/
theorem readerNext_eq (s : Session) {f : Frame} (hf : f.FlagsDefined)
    (hlen : f.payloadLen < 2 ^ 32) :
    s.readerNext f =
      if s.codec.maxPayload.toNat < f.payloadLen then
        s.readerFail (.protocol "frame payload exceeds limit")
      else settle (s.dispatch f.normalize) := by
  unfold readerNext
  rw [FrameCodec.transit_eq _ _ hf hlen]
  split_ifs
  · rfl
  · rfl

/-- The session after an accepted `SYN`. -/
def accepting (s : Session) (i : StreamId) (registry : StreamRegistry) :
    Session :=
  { s with
    registry := registry
    streams := s.streams ++
      [Cell.new (StreamInner.new i .remotely s.config) .queued]
    accept := s.accept.send s.streams.length }

/-- The session after a `SYN` whose stream found no accept queue. -/
def turningAway (s : Session) (i : StreamId) (registry : StreamRegistry) :
    Session :=
  { s with
    registry := StreamRegistry.remove registry i
    streams := s.streams ++
      [Cell.new (StreamInner.new i .remotely s.config) .gone] }

/-- **What a `SYN` does**: it fails, is refused, or makes a stream, which is
given up at once when the accept queue is gone. -/
theorem handleSyn_cases (s : Session) (i : StreamId) :
    (∃ e, s.handleSyn i = .inl (.error e, s)) ∨
    s.handleSyn i = .inl (.ok (), s.enqueue (.rst i)) ∨
    ∃ g, s.role.owns i = false ∧ s.registry.len < s.config.maxStreams ∧
      s.registry.insert i s.streams.length = .ok g ∧
      ((s.accept.closed = true ∧ s.handleSyn i =
          .inl (.ok (), (s.turningAway i g).enqueue (.rst i))) ∨
        (s.accept.closed = false ∧ s.handleSyn i = .inr (s.accepting i g))) := by
  cases hins : s.registry.insert i s.streams.length with
  | error e =>
      simp only [handleSyn, hins]
      split_ifs
      · exact .inl ⟨_, rfl⟩
      · exact .inr (.inl rfl)
      · exact .inr (.inl rfl)
      · exact .inl ⟨_, rfl⟩
  | ok g =>
      simp only [handleSyn, hins]
      split_ifs with hown hgone hmax haccept
      · exact .inl ⟨_, rfl⟩
      · exact .inr (.inl rfl)
      · exact .inr (.inl rfl)
      · exact .inr (.inr ⟨g, Bool.not_eq_true _ ▸ hown, Nat.not_le.mp hmax,
          rfl, .inl ⟨haccept, rfl⟩⟩)
      · exact .inr (.inr ⟨g, Bool.not_eq_true _ ▸ hown, Nat.not_le.mp hmax,
          rfl, .inr ⟨Bool.not_eq_true _ ▸ haccept, rfl⟩⟩)

/-- A `SYN` passes every check of `handle_data`: the id is one of the peer's,
the peer is not known to be gone, the registry has room and the id is free in
it, and the accept queue is there. -/
def admitsSyn (s : Session) (i : StreamId) : Bool :=
  i != 0 && !s.role.owns i && !s.peerGone &&
    decide (s.registry.len < s.config.maxStreams) &&
    (s.registry.get i).isNone && !s.accept.closed

/-- **The checks decide**: a `SYN` makes a stream just when it passes them. -/
theorem admitsSyn_iff (s : Session) (i : StreamId) :
    s.admitsSyn i = true ↔ i ≠ 0 ∧ ∃ s', s.handleSyn i = .inr s' := by
  have hinsert : (s.registry.get i).isNone = true ↔
      ∃ g, s.registry.insert i s.streams.length = .ok g := by
    rw [Option.isNone_iff_eq_none]
    cases hins : s.registry.insert i s.streams.length with
    | error e => simp [StreamRegistry.insert_error hins]
    | ok g => simp [(StreamRegistry.insert_ok hins).1]
  simp only [admitsSyn, Bool.and_eq_true, bne_iff_ne, Bool.not_eq_true',
    decide_eq_true_eq, hinsert]
  constructor
  · rintro ⟨⟨⟨⟨⟨hi, hown⟩, hgone⟩, hlen⟩, g, hins⟩, haccept⟩
    refine ⟨hi, s.accepting i g, ?_⟩
    simp [handleSyn, hown, hgone, Nat.not_le.mpr hlen, hins, haccept, accepting]
  · rintro ⟨hi, s', heq⟩
    simp only [handleSyn] at heq
    split_ifs at heq with hown hgone hmax haccept
    · split at heq <;> cases heq
    · split at heq
      · cases heq
      · rename_i g hins
        exact ⟨⟨⟨⟨⟨hi, Bool.not_eq_true _ ▸ hown⟩, Bool.not_eq_true _ ▸ hgone⟩,
          Nat.not_le.mp hmax⟩, g, hins⟩, Bool.not_eq_true _ ▸ haccept⟩

/-- **A `SYN` that is accepted**: nothing but the new stream changes. -/
theorem dispatch_syn_accepted (hi : i ≠ 0) (hown : s.role.owns i = false)
    (hgone : s.peerGone = false)
    (hmax : ¬ s.config.maxStreams ≤ s.registry.len)
    (haccept : s.accept.closed = false) {registry : StreamRegistry}
    (hins : s.registry.insert i s.streams.length = .ok registry) :
    s.dispatch (Msg.syn.frame i) = (.ok (), s.accepting i registry) := by
  have hsyn : s.handleSyn i = .inr (s.accepting i registry) := by
    unfold handleSyn
    simp [hown, hgone, hmax, hins, haccept, accepting]
  have hget : (s.accepting i registry).registry.get i =
      some s.streams.length := by
    show registry.get i = _
    rw [(StreamRegistry.insert_ok hins).2, if_pos rfl]
  have hc : (s.accepting i registry).streams[s.streams.length]? =
      some (Cell.new (StreamInner.new i .remotely s.config) .queued) := by
    simp [accepting]
  have hf : (s.accepting i registry).find i = some (s.streams.length,
      Cell.new (StreamInner.new i .remotely s.config) .queued) := by
    unfold find
    simp [hget, hc]
  have hdeliver : ∀ inner : StreamInner,
      deliverTo inner Flags.syn [] = (.ok (), inner, .none) := by
    intro inner
    simp +decide [deliverTo]
  simp only [dispatch, Msg.frame, Frame.syn, handleData, if_neg hi]
  rw [if_pos (by decide), hsyn]
  simp only [handleStream, hf, hdeliver]
  exact congrArg _ (System.update_same hc)

end Session

/-! ## Consuming a frame -/

namespace System

variable {cfg : Role → Config} {ok : StreamId → Ev → Pipe → Prop}
  {S : System} {r : Role} {f : Frame} {rest : List Frame}

/-- Replace a session and what is left for it to read. -/
def putRead (S : System) (r : Role) (s : Session) (rest : List Frame) :
    System where
  ends := Function.update S.ends r s
  wire := Function.update S.wire r.peer rest

theorem pipe_putRead (S : System) (r : Role) (s : Session)
    (rest : List Frame) (i : StreamId) :
    (S.putRead r s rest).pipe i =
      (S.pipe i).set r (s.endOf i) (msgs i (S.wire r ++ s.out.queue))
        (msgs i (rest ++ (S.ends r.peer).out.queue)) := by
  apply Pipe.ext_sides r <;> simp [pipe, putRead]

/-- What a pipe sees of the wire's first frame. -/
theorem chan_peer_cons (hwire : S.wire r.peer = f :: rest) (i : StreamId) :
    (S.pipe i).chan r.peer = (f.msg? i).toList ++
      msgs i (rest ++ (S.ends r.peer).out.queue) := by
  show msgs i (S.wire r.peer ++ _) = _
  rw [hwire, List.cons_append, msgs_cons]

/-- A pipe does not see another stream's frame consumed. -/
theorem pipe_putRead_none (hwire : S.wire r.peer = f :: rest) {i : StreamId}
    (hf : f.msg? i = none) (s : Session) :
    (S.putRead r s rest).pipe i = (S.put r s).pipe i := by
  have hchan := chan_peer_cons hwire i
  rw [hf, Option.toList_none, List.nil_append] at hchan
  rw [pipe_putRead, pipe_put, hchan]

/-- The sessions and wires after a frame was consumed. -/
theorem turn_putRead (h : Good cfg S) {s : Session} (hs : s.Wf (cfg r) r)
    (hwire : S.wire r.peer = f :: rest)
    (hmoves : Moves cfg ok S (S.putRead r s rest)) :
    Turn cfg ok S (S.putRead r s rest) := by
  refine ⟨?_, ?_, hmoves⟩
  · rw [Role.forall_iff r]
    simp only [putRead, Function.update_self, ne_eq, Role.peer_ne,
      not_false_eq_true, Function.update_of_ne]
    exact ⟨hs, h.wf r.peer⟩
  · refine h.wire_sub hmoves ?_
    rw [Role.forall_iff r]
    simp only [putRead, Function.update_self, ne_eq, Role.ne_peer,
      not_false_eq_true, Function.update_of_ne]
    refine ⟨fun _ hg => hg, fun g hg => ?_⟩
    rw [hwire]
    exact List.mem_cons_of_mem _ hg

/-- A session-scoped frame is consumed. -/
theorem turn_session (h : Good cfg S) {s : Session} (hs : Sim cfg ok S r s)
    (hwire : S.wire r.peer = f :: rest) (hf : ∀ i, f.msg? i = none) :
    Turn cfg ok S (S.putRead r s rest) := by
  refine turn_putRead h hs.wf hwire fun i => ?_
  rw [pipe_putRead_none hwire (hf i)]
  exact hs.moves i

/-- A message reaches its stream; no other pipe sees anything. -/
theorem turn_message (h : Good cfg S) {s : Session} (hs : s.Wf (cfg r) r)
    {i : StreamId} {m : Msg} {e : Ev} {ms : List Msg}
    (hwire : S.wire r.peer = m.frame i :: rest) (hok : ok i e (S.pipe i))
    (hstep : DeliverStep (cfg r) i r ((S.pipe i).ends r) m e (s.endOf i) ms)
    (hout : msgs i s.out.queue =
      msgs i (S.ends r).out.queue ++ ((S.pipe i).ends r).post ms)
    (hends : ∀ j, j ≠ i → s.endOf j = (S.ends r).endOf j)
    (houts : ∀ j, j ≠ i →
      msgs j s.out.queue = msgs j (S.ends r).out.queue) :
    Turn cfg ok S (S.putRead r s rest) := by
  refine turn_putRead h hs hwire fun j => ?_
  by_cases hj : j = i
  · subst hj
    have hchan := chan_peer_cons hwire j
    rw [Frame.msg?_frame, if_pos rfl] at hchan
    rw [pipe_putRead, msgs_append, hout, ← List.append_assoc, ← msgs_append]
    exact .single hok (.deliver r hchan hstep)
  · have hnone : (m.frame i).msg? j = none := by
      rw [Frame.msg?_frame, if_neg (Ne.symm hj)]
    rw [pipe_putRead_none hwire hnone,
      pipe_put_same S r (hends j hj) (houts j hj)]
    exact .refl _

/-- Once the reader is done the rest of the wire does not matter. -/
theorem turn_skip (h : Good cfg S) (hok : Quiet ok)
    (hdone : (S.ends r).readerDone = true)
    (hwire : S.wire r.peer = f :: rest) :
    Turn cfg ok S (S.putRead r (S.ends r) rest) := by
  refine turn_putRead h (h.wf r) hwire fun i => ?_
  cases hf : f.msg? i with
  | none =>
      rw [pipe_putRead_none hwire hf, pipe_put_same S r rfl rfl]
      exact .refl _
  | some m =>
      have hchan := chan_peer_cons hwire i
      rw [hf] at hchan
      have hpost : ((S.pipe i).ends r).post [] = [] := by simp [End.post]
      have hstep : PipeStep cfg i .quiet (S.pipe i) _ :=
        .deliver r hchan (.ignored (.inr hdone))
      rw [hpost, List.append_nil] at hstep
      rw [pipe_putRead]
      exact .single (hok i _) hstep

/-! ## Reader errors -/

theorem put_putRead (S : System) (r : Role) (s s' : Session)
    (rest : List Frame) : (S.put r s).putRead r s' rest = S.putRead r s' rest := by
  simp [put, putRead]

/-- An error starts a shutdown and ends the loop. -/
theorem sim_readerFail (h : Good cfg S) (hok : Quiet ok)
    (hsd : ∀ i L, ok i (.shutdown r) L) (e : Error) :
    Sim cfg ok S r ((S.ends r).readerFail e) := by
  have hfirst := sim_initiateShutdown h hsd (Session.errorCodeOf e)
  have hcl : ((S.put r ((S.ends r).initiateShutdown
      (Session.errorCodeOf e))).ends r).isClosing = true := by
    rw [put_ends_self]
    exact Session.initiateShutdown_isClosing _ _
  have hsecond := sim_readerDone (hfirst.good h) hok hcl
    ((S.ends r).readerErrors ++ [e])
  rw [put_ends_self] at hsecond
  exact hfirst.trans hsecond

/-- An error that leaves the streams alone. -/
theorem turn_fail (h : Good cfg S) (hok : Quiet ok)
    (hsd : ∀ i L, ok i (.shutdown r) L) (hwire : S.wire r.peer = f :: rest)
    (e : Error) : Turn cfg ok S (S.putRead r ((S.ends r).readerFail e) rest) := by
  have hfail := sim_readerFail h hok hsd e
  have hdone : ((S.put r ((S.ends r).readerFail e)).ends r).readerDone =
      true := by
    rw [put_ends_self]
    rfl
  have hskip : Turn cfg ok _ _ := turn_skip (hfail.good h) hok hdone hwire
  rw [put_ends_self, put_putRead] at hskip
  exact (hfail.turn h).trans hskip

end System

namespace StreamInner

/-- Forcing a stream closed and resetting it can be exchanged. -/
theorem forceClose_localReset (s : StreamInner) :
    s.forceClose.localReset = (s.localReset.1.forceClose, s.localReset.2) := by
  obtain ⟨id, config, ⟨readOpen, writeOpen, reset⟩, ⟨available, closed⟩, rw',
    recv, ack, fin⟩ := s
  cases reset <;> rfl

end StreamInner

namespace System

variable {cfg : Role → Config} {ok : StreamId → Ev → Pipe → Prop}
  {S : System} {r : Role} {f : Frame} {rest : List Frame}

/-- The end of a stream after the reader failed. -/
theorem endOf_readerFail {s : Session} {cfg : Config} (h : s.Wf cfg r)
    (hopen : s.isClosing = false) (e : Error) (i : StreamId) :
    (s.readerFail e).endOf i =
      { s.endOf i with
        closing := true
        registered := false
        readerDone := true
        cell :=
          if (s.endOf i).registered then
            (s.endOf i).cell.map fun c =>
              { c with inner := c.inner.forceClose }
          else (s.endOf i).cell } := by
  have hend := Session.endOf_initiateShutdown h hopen (Session.errorCodeOf e) i
  unfold Session.endOf at hend ⊢
  simp only [End.mk.injEq] at hend
  obtain ⟨hcell, hreg, hcl, hout, -, hfail⟩ := hend
  simp only [Session.readerFail, hcell, hreg, hcl, hout, hfail]

/-- The two orders in which a stream can be reset and its session shut down
look the same to every pipe. -/
theorem endOf_late {s : Session} {cfg : Config} (h : s.Wf cfg r)
    (hopen : s.isClosing = false) {i : StreamId} {n : Ref} {c : Cell}
    (hf : s.find i = some (n, c)) (e : Error)
    (h₁ : (s.update n { c with inner := c.inner.localReset.1 }
      c.inner.localReset.2).Wf cfg r)
    (h₂ : (s.readerFail e).Wf cfg r)
    (hc₂ : (s.readerFail e).streams[n]? = some (Session.force c))
    (j : StreamId) :
    ((s.update n { c with inner := c.inner.localReset.1 }
        c.inner.localReset.2).readerFail e).endOf j =
      ((s.readerFail e).update n
        { Session.force c with
          inner := (Session.force c).inner.localReset.1 }
        c.inner.localReset.2).endOf j := by
  obtain ⟨hc, rfl, hreg⟩ := h.find_some hf
  have hid : ({ c with inner := c.inner.localReset.1 } : Cell).id = c.id :=
    StreamInner.localReset_same.id
  have hid₂ : ({ Session.force c with
      inner := (Session.force c).inner.localReset.1 } : Cell).id =
        (Session.force c).id := StreamInner.localReset_same.id
  rw [endOf_readerFail h₁ hopen]
  by_cases hj : j = c.id
  · subst hj
    rw [Session.endOf_update_self h hc hid]
    rw [show (Session.force c).id = c.id from rfl] at hid₂
    have hself := Session.endOf_update_self h₂ hc₂ hid₂ c.inner.localReset.2
    rw [show (Session.force c).id = c.id from rfl] at hself
    rw [hself, endOf_readerFail h hopen]
    simp only [hreg, if_true, Option.map_some, Session.force,
      StreamInner.forceClose_localReset]
  · rw [Session.endOf_update_ne h hc hid _ hj,
      Session.endOf_update_ne h₂ hc₂ hid₂ _ hj, endOf_readerFail h hopen]

theorem wf_readerFail {s : Session} {cfg : Config} (h : s.Wf cfg r)
    (e : Error) : (s.readerFail e).Wf cfg r :=
  { h.initiateShutdown (Session.errorCodeOf e) with }

theorem msgs_readerFail (s : Session) (e : Error) (i : StreamId) :
    msgs i (s.readerFail e).out.queue = msgs i s.out.queue :=
  Session.msgs_initiateShutdown s _ i

/-- A stream reset by the reader keeps the session well formed. -/
theorem wf_localReset (h : Good cfg S) {n : Ref} {c : Cell}
    (hc : (S.ends r).streams[n]? = some c) :
    ((S.ends r).update n { c with inner := c.inner.localReset.1 }
      c.inner.localReset.2).Wf (cfg r) r := by
  obtain ⟨hframes, hcloses⟩ := localReset_emit (h.cellOk hc).ok
  have hrel : ({ c with inner := c.inner.localReset.1 } : Cell).released =
      true := by
    simp [Cell.released, StreamInner.localReset_reset]
  refine (h.wf r).update hc StreamInner.localReset_same.id (fun _ => hrel)
    (fun hn => show c.owner = .queued from (h.wf r).queued hc hn)
    (fun i hi => ⟨hcloses i hi, hrel⟩) ?_
  rw [hframes]
  refine ours_frames _ fun m hm => ?_
  rw [Cell.mem_resetMsgs hm]
  exact Nat.zero_le _

/-- A stream reset by a reader that is done. -/
theorem sim_fault (h : Good cfg S) {n : Ref} {c : Cell}
    (hc : (S.ends r).streams[n]? = some c)
    (hdone : (S.ends r).readerDone = true)
    (hok : ok c.id (.reset r) (S.pipe c.id)) :
    Sim cfg ok S r ((S.ends r).update n
      { c with inner := c.inner.localReset.1 } c.inner.localReset.2) :=
  ⟨wf_localReset h hc, Moves.update (h.wf r) hc StreamInner.localReset_same.id
    (localReset_emit (h.cellOk hc).ok).1 hok (.faulted (h.cell hc) hdone)⟩

/-- The session shuts down first, then the stream is reset. -/
theorem turn_fault (h : Good cfg S) (hok : Quiet ok)
    (hsd : ∀ i L, ok i (.shutdown r) L) (hreset : ∀ i L, ok i (.reset r) L)
    (hwire : S.wire r.peer = f :: rest) {n : Ref} {c : Cell} {e : Error}
    (hc : ((S.ends r).readerFail e).streams[n]? = some c) :
    Turn cfg ok S (S.putRead r
      (((S.ends r).readerFail e).update n
        { c with inner := c.inner.localReset.1 } c.inner.localReset.2)
      rest) := by
  have hfail := sim_readerFail h hok hsd e
  have hfault : Sim cfg ok (S.put r ((S.ends r).readerFail e)) r _ :=
    sim_fault (n := n) (c := c) (hfail.good h)
      (by rw [put_ends_self]; exact hc) (by rw [put_ends_self]; rfl)
      (hreset _ _)
  rw [put_ends_self] at hfault
  have hboth := hfail.trans hfault
  have hskip : Turn cfg ok _ _ := turn_skip (r := r) (hboth.good h) hok
    (by rw [put_ends_self]; rfl) hwire
  rw [put_ends_self, put_putRead] at hskip
  exact (hboth.turn h).trans hskip

/-- **Data behind a closed read half**: the stream is reset, the session
begins to shut down, and the reader ends. -/
theorem turn_late (h : Good cfg S) (hok : Quiet ok)
    (hsd : ∀ i L, ok i (.shutdown r) L) (hreset : ∀ i L, ok i (.reset r) L)
    (hwire : S.wire r.peer = f :: rest) {i : StreamId} {n : Ref} {c : Cell}
    (hf : (S.ends r).find i = some (n, c)) (e : Error) :
    Turn cfg ok S (S.putRead r
      (((S.ends r).update n { c with inner := c.inner.localReset.1 }
        c.inner.localReset.2).readerFail e) rest) := by
  obtain ⟨hc, rfl, hreg⟩ := (h.wf r).find_some hf
  cases hcl : (S.ends r).isClosing with
  | true =>
      have hagain := Session.initiateShutdown_again hcl (Session.errorCodeOf e)
      have hc₂ : ((S.ends r).readerFail e).streams[n]? = some c := by
        unfold Session.readerFail
        rw [hagain]
        exact hc
      have hturn : Turn cfg ok S _ := turn_fault h hok hsd hreset hwire hc₂
      unfold Session.readerFail at hturn ⊢
      rw [hagain] at hturn
      rw [Session.initiateShutdown_again (by exact hcl)]
      exact hturn
  | false =>
      have h₁ := wf_localReset h hc
      have h₂ := wf_readerFail (h.wf r) e
      have hmem : n ∈ (S.ends r).registry.drain.1 := by
        obtain ⟨m, hm⟩ := Option.isSome_iff_exists.mp hreg
        obtain ⟨d, hd, hid⟩ := (h.wf r).entries _ m hm
        obtain rfl := (h.wf r).distinct.position hd hc hid
        exact StreamRegistry.mem_drain.mpr ⟨_, hm⟩
      have hc₂ : ((S.ends r).readerFail e).streams[n]? =
          some (Session.force c) := by
        unfold Session.readerFail
        rw [Session.initiateShutdown_eq hcl]
        show (Keyed.modifyAll Session.force _ _)[n]? = _
        rw [Keyed.getElem?_modifyAll Session.force_idem, hc, Option.map_some,
          if_pos hmem]
      have hturn : Turn cfg ok S _ := turn_fault h hok hsd hreset hwire hc₂
      have hemit : (Session.force c).inner.localReset.2 =
          c.inner.localReset.2 := by
        show c.inner.forceClose.localReset.2 = _
        rw [StreamInner.forceClose_localReset]
      rw [hemit] at hturn
      refine turn_putRead h (wf_readerFail h₁ e) hwire fun j => ?_
      have hframes := (localReset_emit (h.cellOk hc).ok).1
      have hout : ((S.ends r).readerFail e).out.closed =
          (S.ends r).out.closed := by
        unfold Session.readerFail
        rw [Session.initiateShutdown_eq hcl]
        exact Chan.send_closed _ _
      have hmsgs : msgs j (((S.ends r).update n
          { c with inner := c.inner.localReset.1 }
            c.inner.localReset.2).readerFail e).out.queue =
          msgs j (((S.ends r).readerFail e).update n
            { Session.force c with
              inner := (Session.force c).inner.localReset.1 }
            c.inner.localReset.2).out.queue := by
        have hpost : (((S.ends r).readerFail e).endOf j).post c.resetMsgs =
            ((S.ends r).endOf j).post c.resetMsgs := by
          unfold End.post Session.endOf
          rw [hout]
        rw [msgs_readerFail, msgs_update hframes, msgs_update hframes,
          msgs_readerFail, hpost]
      have hmoves := hturn.moves j
      rw [pipe_putRead, msgs_append] at hmoves ⊢
      rw [endOf_late (h.wf r) hcl hf e h₁ h₂ hc₂ j, hmsgs]
      exact hmoves

/-! ## Messages that reach their stream -/

/-- A message that is not too late is delivered. -/
theorem deliver_step {cfg : Config} {i : StreamId} {E : End} {c : Cell}
    {m : Msg} (hcell : E.cell = some c) (hl : E.listening = true)
    (hm : m ≠ .syn) (hlate : ¬ Session.tooLate c.inner m) :
    DeliverStep cfg i r E m .quiet
      { E with cell := some (Session.hear c m) } [] := by
  cases m with
  | syn => exact absurd rfl hm
  | ack => exact .acked hcell hl
  | data payload =>
      refine .data hcell hl ?_
      by_cases hp : payload = []
      · exact .inl hp
      · right
        by_contra hc
        rw [Bool.not_eq_true] at hc
        exact hlate ⟨hp, hc⟩
  | fin => exact .fin hcell hl
  | rst => exact .rst hcell hl
  | credit delta => exact .credit hcell hl

theorem applyMsg_emit (inner : StreamInner) (m : Msg) :
    (Session.applyMsg inner m).2.frames = [] ∧
      (Session.applyMsg inner m).1.id = inner.id ∧
      ∀ i ∈ (Session.applyMsg inner m).2.closes,
        i = inner.id ∧ (Session.applyMsg inner m).1.state.reset = true := by
  cases m with
  | rst => exact ⟨rfl, rfl, fun i hi => ⟨List.mem_singleton.mp hi, rfl⟩⟩
  | data payload =>
      exact ⟨rfl, (StreamInner.pushData_same inner payload).id,
        fun i hi => by cases hi⟩
  | _ => exact ⟨rfl, rfl, fun i hi => by cases hi⟩

/-- A message for a registered stream. -/
theorem turn_found (h : Good cfg S) (hok : Quiet ok) {i : StreamId} {m : Msg}
    (hdone : (S.ends r).readerDone = false)
    (hwire : S.wire r.peer = m.frame i :: rest) {n : Ref} {c : Cell}
    (hf : (S.ends r).find i = some (n, c)) (hm : m ≠ .syn)
    (hlate : ¬ Session.tooLate c.inner m) :
    Turn cfg ok S (S.putRead r ((S.ends r).update n (Session.hear c m)
      (Session.applyMsg c.inner m).2) rest) := by
  obtain ⟨hc, rfl, hreg⟩ := (h.wf r).find_some hf
  obtain ⟨hframes, hid, hcloses⟩ := applyMsg_emit c.inner m
  have hid : (Session.hear c m).id = c.id := hid
  have hl : ((S.pipe c.id).ends r).listening = true := by
    show (((S.ends r).endOf c.id).registered && !(S.ends r).readerDone) = true
    rw [hreg, hdone]
    rfl
  have hstep : DeliverStep (cfg r) c.id r _ m .quiet _ [] :=
    deliver_step (h.cell hc) hl hm hlate
  obtain ⟨d, hd, hlater⟩ := hstep.later (h.cell hc)
  obtain rfl := Option.some.inj hd
  have hmsgs : ∀ j, msgs j ((S.ends r).update n (Session.hear c m)
      (Session.applyMsg c.inner m).2).out.queue =
        msgs j (S.ends r).out.queue := by
    intro j
    show msgs j ((S.ends r).out.sendAll _).queue = _
    rw [hframes, Chan.sendAll_nil]
  refine turn_message h ?_ hwire (hok _ _)
    (by rw [Session.endOf_update_self (h.wf r) hc hid]; exact hstep) ?_ ?_ ?_
  · refine (h.wf r).update hc hid hlater.released
      (fun hn => show c.owner = .queued from (h.wf r).queued hc hn) ?_ ?_
    · intro i hi
      obtain ⟨hi, hrst⟩ := hcloses i hi
      exact ⟨hi, by simp [Cell.released, Session.hear, hrst]⟩
    · rw [hframes]
      exact fun f hf => by cases hf
  · rw [hmsgs]
    simp [End.post]
  · exact fun j hj => Session.endOf_update_ne (h.wf r) hc hid _ hj
  · exact fun j _ => hmsgs j

/-! ## Unknown streams -/

/-- The reader of `r` answers the next frame, of stream `i`, with `RST`. -/
def Refuses (S : System) (r : Role) (i : StreamId) : Prop :=
  (S.ends r).readerDone = false ∧ ∃ (m : Msg) (rest : List Frame),
    S.wire r.peer = m.frame i :: rest ∧ m.wantsStream = true ∧
      (S.ends r).find i = none ∧
      (m = .syn → (S.ends r).peerGone = true ∨
        (S.ends r).config.maxStreams ≤ (S.ends r).registry.len)

/-- A message is answered with `RST`. -/
theorem turn_rst (h : Good cfg S) {i : StreamId} {m : Msg}
    (hwire : S.wire r.peer = m.frame i :: rest)
    (hf : (S.ends r).find i = none) (hm : m.wantsStream = true)
    (hok : ok i (.rst r) (S.pipe i)) :
    Turn cfg ok S (S.putRead r ((S.ends r).enqueue (.rst i)) rest) := by
  have hmsgs : ∀ j, msgs j ((S.ends r).enqueue (.rst i)).out.queue =
      msgs j (S.ends r).out.queue ++
        if j = i then ((S.ends r).endOf j).post [.rst] else [] := by
    intro j
    show msgs j ((S.ends r).out.sendAll [.rst i]).queue = _
    rw [Chan.sendAll_queue, msgs_append]
    unfold End.post Session.endOf
    by_cases hj : j = i
    · subst hj
      rw [if_pos rfl]
      split
      · rfl
      · exact congrArg _ (msgs_frames_self j [.rst])
    · rw [if_neg hj]
      split
      · rfl
      · exact congrArg _ (msgs_frames_ne (Ne.symm hj) [.rst])
  have hstep : DeliverStep (cfg r) i r ((S.pipe i).ends r) m (.rst r)
      (((S.ends r).enqueue (.rst i)).endOf i) [.rst] := by
    rw [Session.endOf_enqueue]
    exact .refused ((h.wf r).find_none hf) hm
  refine turn_message h ((h.wf r).enqueue (.msg i .rst (Nat.zero_le _))) hwire
    hok hstep ?_ ?_ ?_
  · rw [hmsgs, if_pos rfl]
    rfl
  · exact fun j _ => Session.endOf_enqueue _ _ j
  · intro j hj
    rw [hmsgs, if_neg hj, List.append_nil]

/-- A message is passed over. -/
theorem turn_ignored (h : Good cfg S) (hok : Quiet ok) {i : StreamId} {m : Msg}
    (hwire : S.wire r.peer = m.frame i :: rest)
    (hf : (S.ends r).find i = none) (hm : m.wantsStream = false) :
    Turn cfg ok S (S.putRead r (S.ends r) rest) := by
  refine turn_message h (h.wf r) hwire (hok _ _)
    (.ignored (.inl ⟨(h.wf r).find_none hf, hm⟩)) ?_ (fun _ _ => rfl)
    (fun _ _ => rfl)
  simp [End.post]

/-! ## New streams -/

/-- The `SYN` is the first message of its pipe: the id is the peer's, and no
stream with it exists here. -/
theorem Good.syn_next (h : Good cfg S) {i : StreamId}
    (hwire : S.wire r.peer = Msg.syn.frame i :: rest) :
    r.owns i = false ∧ ((S.pipe i).ends r).cell = none ∧
      (S.ends r).registry.get i = none := by
  have hchan := chan_peer_cons hwire i
  rw [Frame.msg?_frame, if_pos rfl] at hchan
  have hsound := (h.pipes i).sound
  obtain ⟨hopener, hcell, -, -⟩ := hsound.syn_next hchan
  refine ⟨?_, hcell, ?_⟩
  · have hne := hsound.opened_of_chan (r := r.peer) (by rw [hchan]; simp)
    have hown := hsound.hand.owned hne
    rw [← hopener] at hown
    simpa only [Role.peer_peer] using Role.not_owns_peer hown
  · by_contra hget
    apply (hsound.ends r).registered _ hcell
    exact Option.isSome_iff_ne_none.mpr hget

/-- A frame of a stream has a stream id. -/
theorem Good.id_ne_zero (h : Good cfg S) {i : StreamId} {m : Msg}
    (hwire : S.wire r.peer = m.frame i :: rest) : i ≠ 0 := by
  have hchan := chan_peer_cons hwire i
  rw [Frame.msg?_frame, if_pos rfl] at hchan
  have hsound := (h.pipes i).sound
  have hne := hsound.opened_of_chan (r := r.peer) (by rw [hchan]; simp)
  exact Role.owns_ne_zero (hsound.hand.owned hne)

/-- A `SYN` is accepted. -/
theorem turn_accepted (h : Good cfg S) (hok : Quiet ok) {i : StreamId}
    (hdone : (S.ends r).readerDone = false)
    (hwire : S.wire r.peer = Msg.syn.frame i :: rest)
    {registry : StreamRegistry}
    (hins : (S.ends r).registry.insert i (S.ends r).streams.length =
      .ok registry) :
    Turn cfg ok S (S.putRead r ((S.ends r).accepting i registry) rest) := by
  obtain ⟨hown, hcell, -⟩ := h.syn_next hwire
  obtain ⟨-, hreg⟩ := StreamRegistry.insert_ok hins
  have hwf := h.wf r
  have hnew : ∀ d ∈ (S.ends r).streams, d.id ≠ i := Keyed.lookup_none.mp hcell
  have hend : ∀ j, ((S.ends r).accepting i registry).endOf j = _ :=
    Session.endOf_create (s := S.ends r)
      (c := Cell.new (StreamInner.new i .remotely (S.ends r).config) .queued)
      rfl hreg hnew rfl rfl rfl rfl
  have hstep : DeliverStep (cfg r) i r ((S.pipe i).ends r) .syn .quiet
      (((S.ends r).accepting i registry).endOf i) [] := by
    have hself : ((S.ends r).accepting i registry).endOf i = _ :=
      (hend i).trans (if_pos rfl)
    rw [hself, hwf.config]
    exact .created hcell hdone
  refine turn_message h ?_ hwire (hok _ _) hstep ?_
    (fun j hj => (hend j).trans (if_neg hj)) (fun _ _ => rfl)
  · have hcreate := hwf.create
      (c := Cell.new (StreamInner.new i .remotely (S.ends r).config) .queued)
      hnew hreg (fun hown' => absurd hown' (by
        show ¬ r.owns i = true
        rw [hown]
        decide))
    have hlen : ∀ n ∈ (S.ends r).accept.queue,
        n < (S.ends r).streams.length := by
      intro n hn
      obtain ⟨c, hc, -⟩ := hwf.acceptQueued n hn
      exact (List.getElem?_eq_some_iff.mp hc).1
    have hqueue : ((S.ends r).accepting i registry).accept.queue =
        (S.ends r).accept.queue ++ [(S.ends r).streams.length] := by
      show ((S.ends r).accept.sendAll [_]).queue = _
      rw [Chan.sendAll_queue, hwf.acceptOpen]
      rfl
    refine { hcreate with acceptOpen := ?_, acceptNodup := ?_, acceptQueued := ?_ }
    · exact (Chan.send_closed _ _).trans hwf.acceptOpen
    · rw [hqueue, List.nodup_append]
      refine ⟨hwf.acceptNodup, by simp, fun n hn m hm => ?_⟩
      rw [List.mem_singleton.mp hm]
      exact Nat.ne_of_lt (hlen n hn)
    · intro n hn
      rw [hqueue] at hn
      rcases List.mem_append.mp hn with hn | hn
      · exact hcreate.acceptQueued n hn
      · refine ⟨Cell.new (StreamInner.new i .remotely (S.ends r).config)
          .queued, ?_, rfl⟩
        rw [List.mem_singleton.mp hn]
        simp [Session.accepting]
  · show msgs i (S.ends r).out.queue = _
    simp [End.post]

/-! ## The whole reader -/

/-- It does not matter when the peer's leave is noted. -/
theorem initiateShutdown_note (s : Session) (code : ErrorCode) :
    (s.initiateShutdown code).notePeerGone =
      s.notePeerGone.initiateShutdown code := by
  unfold Session.initiateShutdown Session.notePeerGone
  dsimp only
  split <;> rfl

/-- A frame of the session: a ping, its reply, or `GoAway`. -/
theorem sim_dispatch_session (h : Good cfg S) {limit : Nat}
    {closing : Bool} (hf : Frame.Ours limit closing f)
    (hnone : ∀ i, f.msg? i = none) :
    ∃ s, (S.ends r).dispatch f.normalize = (.ok (), s) ∧
      ((s.isClosing = true → ∀ i L, ok i (.shutdown r) L) →
        Sim cfg ok S r s) := by
  cases hf with
  | msg i m hlen =>
      have hself := hnone i
      rw [Frame.msg?_frame, if_pos rfl] at hself
      cases hself
  | ping nonce =>
      exact ⟨_, rfl, fun _ => sim_enqueue h (.pong nonce) fun _ => rfl⟩
  | pong nonce => exact ⟨_, rfl, fun _ => sim_keepalive h _⟩
  | goAway code _ =>
      refine ⟨_, rfl, fun hsd => ?_⟩
      have hsd := hsd (Session.initiateShutdown_isClosing _ _)
      have hshut := sim_initiateShutdown h hsd (ErrorCode.ofU32 code.asU32)
      rw [← initiateShutdown_note]
      refine hshut.trans ⟨{ hshut.wf with goneClosing := fun _ => ?_ },
        .of_same (fun i => ?_) fun i => ?_⟩
      · exact Session.initiateShutdown_isClosing _ _
      · rw [put_ends_self]
        rfl
      · rw [put_ends_self]
        rfl

theorem normalize_frame (i : StreamId) (m : Msg) :
    (m.frame i).normalize = m.frame i := by
  cases m <;> rfl

theorem Turn.refl (h : Good cfg S) : Turn cfg ok S S :=
  ⟨h.wf, h.wire, Moves.refl S⟩

/-- What the reader of `r` can make of message `m` of stream `i`. -/
inductive Dispatched (S : System) (r : Role) (i : StreamId) (m : Msg) :
    Except Error Unit × Session → Prop where
  /-- No such stream, or no room for it. -/
  | refused (hf : (S.ends r).find i = none) (hm : m.wantsStream = true)
      (hfull : m = .syn → (S.ends r).peerGone = true ∨
        (S.ends r).config.maxStreams ≤ (S.ends r).registry.len) :
      Dispatched S r i m (.ok (), (S.ends r).enqueue (.rst i))
  | ignored (hf : (S.ends r).find i = none) (hm : m.wantsStream = false) :
      Dispatched S r i m (.ok (), S.ends r)
  | accepted {registry : StreamRegistry} (hm : m = .syn)
      (hins : (S.ends r).registry.insert i (S.ends r).streams.length =
        .ok registry) :
      Dispatched S r i m (.ok (), (S.ends r).accepting i registry)
  /-- Data behind a closed read half. -/
  | late {n : Ref} {c : Cell} (hf : (S.ends r).find i = some (n, c))
      (hlate : Session.tooLate c.inner m) :
      Dispatched S r i m (.error (.protocol "data after FIN"),
        (S.ends r).update n { c with inner := c.inner.localReset.1 }
          c.inner.localReset.2)
  | heard {n : Ref} {c : Cell} (hf : (S.ends r).find i = some (n, c))
      (hm : m ≠ .syn) (hlate : ¬ Session.tooLate c.inner m) :
      Dispatched S r i m (.ok (), (S.ends r).update n (Session.hear c m)
        (Session.applyMsg c.inner m).2)

/-- **Every dispatch of a message in a good system.** -/
theorem Good.dispatched (h : Good cfg S) {i : StreamId} {m : Msg}
    (hwire : S.wire r.peer = m.frame i :: rest) :
    Dispatched S r i m ((S.ends r).dispatch (m.frame i)) := by
  have hi := h.id_ne_zero hwire
  by_cases hm : m = .syn
  · subst hm
    obtain ⟨hown, -, hget⟩ := h.syn_next hwire
    rw [← (h.wf r).role] at hown
    by_cases hfull : (S.ends r).peerGone = true ∨
        (S.ends r).config.maxStreams ≤ (S.ends r).registry.len
    · rw [Session.dispatch_syn_refused hi hown hfull]
      exact .refused (by simp [Session.find, hget]) rfl fun _ => hfull
    · rw [not_or, Bool.not_eq_true] at hfull
      cases hins : (S.ends r).registry.insert i (S.ends r).streams.length with
      | error e => exact absurd hget (StreamRegistry.insert_error hins)
      | ok registry =>
          rw [Session.dispatch_syn_accepted hi hown hfull.1 hfull.2
            (h.wf r).acceptOpen hins]
          exact .accepted rfl hins
  · cases hf : (S.ends r).find i with
    | none =>
        rw [Session.dispatch_unknown hi hf hm]
        cases hw : m.wantsStream with
        | true => exact .refused hf hw fun hsyn => absurd hsyn hm
        | false => exact .ignored hf hw
    | some p =>
        obtain ⟨n, c⟩ := p
        by_cases hlate : Session.tooLate c.inner m
        · rw [Session.dispatch_late hi hf hlate]
          exact .late hf hlate
        · rw [Session.dispatch_found hi hf hm hlate]
          exact .heard hf hm hlate

/-- The reader's turn on a message. -/
theorem turn_reader_msg (h : Good cfg S) (hok : Quiet ok) {i : StreamId}
    {m : Msg} (hdone : (S.ends r).readerDone = false)
    (hwire : S.wire r.peer = m.frame i :: rest)
    (hrst : ∀ i, S.Refuses r i → ok i (.rst r) (S.pipe i))
    (hfail : ∀ e s, (S.ends r).dispatch (m.frame i) = (.error e, s) →
      (∀ i L, ok i (.shutdown r) L) ∧ ∀ i L, ok i (.reset r) L) :
    Turn cfg ok S
      (S.putRead r (Session.settle ((S.ends r).dispatch (m.frame i))) rest) := by
  have hcases := h.dispatched hwire
  generalize (S.ends r).dispatch (m.frame i) = result at hcases hfail
  cases hcases with
  | refused hf hm hfull =>
      exact turn_rst h hwire hf hm (hrst i ⟨hdone, m, rest, hwire, hm, hf, hfull⟩)
  | ignored hf hm => exact turn_ignored h hok hwire hf hm
  | accepted hm hins =>
      subst hm
      exact turn_accepted h hok hdone hwire hins
  | late hf hlate =>
      obtain ⟨hsd, hreset⟩ := hfail _ _ rfl
      exact turn_late h hok hsd hreset hwire hf _
  | heard hf hm hlate => exact turn_found h hok hdone hwire hf hm hlate

/-- **What the reader does with the next frame**: one that is too long for
its codec ends the session, any other is dispatched. -/
theorem Good.readerNext (h : Good cfg S) (hf : f ∈ S.wire r.peer) :
    (S.ends r).readerNext f =
      if (S.ends r).codec.maxPayload.toNat < f.payloadLen then
        (S.ends r).readerFail (.protocol "frame payload exceeds limit")
      else Session.settle ((S.ends r).dispatch f.normalize) := by
  have hours := h.wire r.peer f hf
  have hlt := (FrameCodec.new (cfg r.peer).maxFrameSize).maxPayload.toNat_lt
  exact Session.readerNext_eq _ hours.flagsDefined
    (Nat.lt_of_le_of_lt hours.payloadLen_le hlt)

theorem readerTurn_eq (hdone : (S.ends r).readerDone = false)
    (hwire : S.wire r.peer = f :: rest) :
    S.readerTurn r = S.putRead r ((S.ends r).readerNext f) rest := by
  unfold readerTurn putRead
  rw [if_neg (by simp [hdone]), hwire]

theorem readerTurn_ends (hdone : (S.ends r).readerDone = false)
    (hwire : S.wire r.peer = f :: rest) :
    (S.readerTurn r).ends r = (S.ends r).readerNext f := by
  rw [readerTurn_eq hdone hwire]
  simp [putRead]

theorem readerTurn_peer (S : System) (r : Role) :
    (S.readerTurn r).ends r.peer = S.ends r.peer := by
  unfold readerTurn
  split
  · rfl
  · split
    · rfl
    · simp

/-- A reader that is done, or has nothing to read, does nothing. -/
theorem readerTurn_idle
    (h : (S.ends r).readerDone = true ∨ S.wire r.peer = []) :
    S.readerTurn r = S := by
  unfold readerTurn
  rcases h with hdone | hwire
  · rw [if_pos hdone]
  · rw [hwire]
    split <;> rfl

/-- **One turn of the reader.** -/
theorem turn_reader (h : Good cfg S) (hok : Quiet ok)
    (hfail : ((S.readerTurn r).ends r).isClosing = true →
      (∀ i L, ok i (.shutdown r) L) ∧ ∀ i L, ok i (.reset r) L)
    (hrst : ∀ i, S.Refuses r i → ok i (.rst r) (S.pipe i)) :
    Turn cfg ok S (S.readerTurn r) := by
  by_cases hidle : (S.ends r).readerDone = true ∨ S.wire r.peer = []
  · rw [readerTurn_idle hidle]
    exact .refl h
  rw [not_or, Bool.not_eq_true] at hidle
  obtain ⟨hdone, hne⟩ := hidle
  obtain ⟨f, rest, hwire⟩ := List.exists_cons_of_ne_nil hne
  have hf : f ∈ S.wire r.peer := by
    rw [hwire]
    exact List.mem_cons_self ..
  have hours := h.wire r.peer f hf
  rw [readerTurn_ends hdone hwire, h.readerNext hf] at hfail
  rw [readerTurn_eq hdone hwire, h.readerNext hf]
  by_cases hlen : (S.ends r).codec.maxPayload.toNat < f.payloadLen
  · rw [if_pos hlen] at hfail ⊢
    exact turn_fail h hok
      (hfail (Session.initiateShutdown_isClosing _ _)).1 hwire _
  rw [if_neg hlen] at hfail ⊢
  by_cases hnone : ∀ i, f.msg? i = none
  · obtain ⟨s, hd, hs⟩ := sim_dispatch_session h hours hnone
    rw [hd] at hfail ⊢
    exact turn_session h (hs fun hcl => (hfail hcl).1) hwire hnone
  · cases hours with
    | msg i m hm =>
        rw [normalize_frame] at hfail ⊢
        refine turn_reader_msg h hok hdone hwire hrst fun e s hd => ?_
        rw [hd] at hfail
        exact hfail (Session.initiateShutdown_isClosing _ _)
    | ping nonce => exact absurd (fun _ => rfl) hnone
    | pong nonce => exact absurd (fun _ => rfl) hnone
    | goAway code _ => exact absurd (fun _ => rfl) hnone

/-! ## Every action -/

end System

/-- The actions that can make a session begin to shut down. -/
def Act.mayClose : Act → Bool
  | .close => true
  | .writerNext => true
  | .readerNext => true
  | .readerEof => true
  | .keepaliveTimeout => true
  | _ => false

namespace System

variable {cfg : Role → Config} {ok : StreamId → Ev → Pipe → Prop}
  {S : System} {r : Role}

/-- The events an action of the system can cause in the pipe of stream
`i`. -/
inductive Permits (S : System) (a : Action) (i : StreamId) :
    Ev → Pipe → Prop where
  | quiet (L : Pipe) : Permits S a i .quiet L
  | timedOut (L : Pipe) {h : Ref} (hact : a.act = .openTimeout h) :
      Permits S a i (.rst a.role) L
  | refused (hact : a.act = .readerNext) (h : S.Refuses a.role i) :
      Permits S a i (.rst a.role) (S.pipe i)
  | reset (L : Pipe) {h : Ref} (hact : a.act = .reset h) :
      Permits S a i (.reset a.role) L
  | faulted (L : Pipe) (hact : a.act = .readerNext)
      (hclosing : ((S.step a).ends a.role).isClosing = true) :
      Permits S a i (.reset a.role) L
  | removed {rest : List StreamId} (hact : a.act = .closerNext)
      (hhead : (S.ends a.role).closer.queue = i :: rest) :
      Permits S a i (.remove a.role) (S.pipe i)
  | shutdown (L : Pipe) (hact : a.act.mayClose = true)
      (hclosing : ((S.step a).ends a.role).isClosing = true) :
      Permits S a i (.shutdown a.role) L

theorem turn_eof (h : Good cfg S) (hok : Quiet ok)
    (hsd : ((S.eofTurn r).ends r).isClosing = true →
      ∀ i L, ok i (.shutdown r) L) :
    Turn cfg ok S (S.eofTurn r) := by
  unfold eofTurn at hsd ⊢
  split
  · rename_i heof
    rw [if_pos heof, put_ends_self] at hsd
    exact (sim_readerEof h hok
      (hsd (Session.initiateShutdown_isClosing _ _))).turn h
  · exact .refl h

/-- **Every action of a system is, for every pipe, a path of pipe steps**,
and causes only the events it permits. -/
theorem Good.turn (h : Good cfg S) (a : Action) :
    Turn cfg (S.Permits a) S (S.step a) := by
  have hok : Quiet (S.Permits a) := fun _ L => .quiet L
  have hsd : a.act.mayClose = true →
      ((S.step a).ends a.role).isClosing = true →
        ∀ i L, S.Permits a i (.shutdown a.role) L :=
    fun hact hcl _ L => .shutdown L hact hcl
  obtain ⟨r, act⟩ := a
  cases act with
  | openStart => exact (sim_openStart h hok).turn h
  | openPoll n => exact (sim_openPoll h hok n).turn h
  | openTimeout n =>
      exact (sim_openTimeout h hok (fun _ L => .timedOut L rfl) n).turn h
  | openCancel n => exact (sim_openCancel h hok n).turn h
  | accept => exact (sim_acceptPoll h hok).turn h
  | pollRead n remaining => exact (sim_pollRead h hok n remaining).turn h
  | pollWrite n buf => exact (sim_pollWrite h hok n buf).turn h
  | shutdown n => exact (sim_pollShutdown h hok n).turn h
  | reset n => exact (sim_reset h (fun _ L => .reset L rfl) n).turn h
  | drop n => exact (sim_dropHandle h hok n).turn h
  | close =>
      refine (sim_initiateShutdown h (hsd rfl ?_) .normal).turn h
      show ((S.put r (S.ends r).close).ends r).isClosing = true
      rw [put_ends_self]
      exact Session.initiateShutdown_isClosing _ _
  | writerNext => exact turn_writer h hok (hsd rfl)
  | writerStop => exact (sim_writerStop h).turn h
  | readerNext =>
      exact turn_reader h hok
        (fun hcl => ⟨hsd rfl hcl, fun _ L => .faulted L rfl hcl⟩)
        fun _ href => .refused rfl href
  | readerStop => exact (sim_readerStop h hok).turn h
  | readerEof => exact turn_eof h hok (hsd rfl)
  | closerNext =>
      exact (sim_closerNext h fun _ _ hhead => .removed rfl hhead).turn h
  | closerStop => exact (sim_closerStop h).turn h
  | keepaliveTick => exact (sim_keepaliveTick h).turn h
  | keepalivePong => exact (sim_keepalivePong h).turn h
  | keepaliveTimeout =>
      refine (sim_keepaliveTimeout h fun hcl => hsd rfl ?_).turn h
      show ((S.put r (S.ends r).keepaliveTimeout).ends r).isClosing = true
      rw [put_ends_self]
      exact hcl
  | keepaliveStop => exact (sim_keepaliveStop h).turn h

/-- **Only five actions can begin a shutdown**, and only of the side that
acts. -/
theorem Good.closing_step (h : Good cfg S) (a : Action) {r : Role}
    (hcl : ((S.step a).ends r).isClosing = true) :
    (S.ends r).isClosing = true ∨ (r = a.role ∧ a.act.mayClose = true) := by
  have hpath : ((((S.step a).pipe 0).ends r).closing = true →
      ((S.pipe 0).ends r).closing = true ∨
        (r = a.role ∧ a.act.mayClose = true)) := by
    refine ((h.turn a).moves 0).invariant (I := fun L =>
      (L.ends r).closing = true → ((S.pipe 0).ends r).closing = true ∨
        (r = a.role ∧ a.act.mayClose = true)) ?_ .inl
    intro e L L' hinv hpermits hstep hcl'
    rcases hstep.closing_from hcl' with hcl | rfl
    · exact hinv hcl
    · cases hpermits with
      | shutdown _ hact _ => exact .inr ⟨rfl, hact⟩
  exact hpath hcl

/-! ## Every run -/

/-- The pipe of a stream that was never opened. -/
def emptyPipe : Pipe where
  ends := fun _ =>
    { cell := none, registered := false, closing := false, outClosed := false,
      readerDone := false, encodeFailed := false }
  chan := fun _ => []

theorem pipe_init (cfg : Role → Config) (i : StreamId) :
    (init cfg).pipe i = emptyPipe := by
  unfold pipe emptyPipe
  simp [init, Session.endOf, Session.new, Keyed.lookup,
    StreamRegistry.get_empty, Chan.new]

theorem inv_emptyPipe (cfg : Role → Config) (i : StreamId) :
    Pipe.Inv cfg i emptyPipe where
  sound :=
    { ends := fun _ =>
        { cell := fun _ hc => by cases hc
          registered := fun hreg => by cases hreg
          removed := fun _ hc => by cases hc
          outClosing := id
          doneClosing := id
          failClosing := id }
      hand :=
        { fresh := fun _ => ⟨rfl, rfl, rfl⟩
          owned := fun hne => absurd rfl hne
          notQueued := fun _ hc => by cases hc
          synBack := List.not_mem_nil
          synFirst := List.not_mem_nil
          waiting := fun hsyn => by cases hsyn
          acking := fun hack => by cases hack
          acked := fun _ hc => by cases hc }
      order := fun _ =>
        { order := .nil
          final := fun _ hm => by cases hm
          shut := fun _ hc => by cases hc } }
  delivery := fun _ _ => ⟨fun _ => ⟨rfl, rfl⟩, [], rfl, fun _ _ => rfl⟩
  credit := fun _ =>
    { idle := fun _ => ⟨rfl, rfl, rfl, rfl⟩
      bound := Nat.zero_le _
      conserved := fun _ _ hreg => by cases hreg }

theorem good_init (cfg : Role → Config) : Good cfg (init cfg) where
  wf := fun r => Session.wf_new (cfg r) r
  wire := fun _ f hf => by cases hf
  pipes := fun i => by
    rw [pipe_init]
    exact inv_emptyPipe cfg i

/-- **A system stays good**, whatever both sides do. -/
theorem good_after (cfg : Role → Config) (as : List Action) :
    Good cfg (after cfg as) :=
  run_invariant_all step (fun _ a h => (h.turn a).good h) as _
    (good_init cfg)

end System

end NetMux
