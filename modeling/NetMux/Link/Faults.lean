import NetMux.Link.Integrity

/-!
# Protocol errors between two endpoints that run this code

A reader gives up its session with a protocol error when it cannot decode a
frame, when a peer opens a stream with an id that is not its own or in use,
when data comes on stream id zero, and when data comes for a stream that no
longer receives.  Between two endpoints that run this code with one
configuration only the last can happen, and only in one way: `Stream::reset`
was called on the stream, its closer has not yet taken it out of the
registry, and data that the peer sent before it learned of the reset arrives.

A step is a whole call or the whole dispatch of a frame.  Where the parts of a
dispatch are steps of their own, as in the runs of `Net`, `Stream::reset` may
fall between the look-up of a stream and the delivery to it.  No data is late
when such a frame is taken up, and the reader fails all the same.
-/

namespace NetMux

open Lib.Run

/-! ## Who records reader errors -/

namespace Session

variable (s : Session)

theorem initiateShutdown_readerErrors (code : ErrorCode) :
    (s.initiateShutdown code).readerErrors = s.readerErrors := by
  unfold initiateShutdown
  split <;> rfl

theorem openStart_readerErrors :
    s.openStart.2.readerErrors = s.readerErrors := by
  unfold openStart
  dsimp only
  repeat' split
  all_goals rfl

theorem openPoll_readerErrors (n : Ref) :
    (s.openPoll n).2.readerErrors = s.readerErrors := by
  unfold openPoll
  repeat' split
  all_goals rfl

theorem openTimeout_readerErrors (n : Ref) :
    (s.openTimeout n).2.readerErrors = s.readerErrors := by
  unfold openTimeout
  split
  · rfl
  · split
    · exact openPoll_readerErrors s n
    · rfl

theorem acceptPoll_readerErrors :
    s.acceptPoll.2.readerErrors = s.readerErrors := by
  unfold acceptPoll
  dsimp only
  repeat' split
  all_goals rfl

theorem writerNext_readerErrors :
    s.writerNext.2.readerErrors = s.readerErrors := by
  unfold writerNext
  dsimp only
  repeat' split
  all_goals first | rfl | exact initiateShutdown_readerErrors _ _

theorem keepaliveTimeout_readerErrors :
    s.keepaliveTimeout.readerErrors = s.readerErrors := by
  unfold keepaliveTimeout
  split
  · exact initiateShutdown_readerErrors _ _
  · rfl

theorem keepaliveTick_readerErrors :
    s.keepaliveTick.readerErrors = s.readerErrors := by
  unfold keepaliveTick
  dsimp only
  repeat' split
  all_goals rfl

theorem keepalivePong_readerErrors :
    s.keepalivePong.readerErrors = s.readerErrors := by
  unfold keepalivePong
  repeat' split
  all_goals rfl

end Session

namespace System

variable {cfg : Role → Config} {S : System} {r : Role}

/-- Only the reader records errors. -/
theorem step_readerErrors {a : Action} (ha : a.act ≠ .readerNext) (r : Role) :
    ((S.step a).ends r).readerErrors = (S.ends r).readerErrors := by
  obtain ⟨r', act⟩ := a
  have hput : ∀ s : Session, s.readerErrors = (S.ends r').readerErrors →
      ((S.put r' s).ends r).readerErrors = (S.ends r).readerErrors := by
    intro s hs
    rcases Role.eq_or_eq_peer r' r with rfl | rfl
    · rw [put_ends_self, hs]
    · rw [put_ends_ne S s (Role.peer_ne r')]
  cases act with
  | openStart => exact hput _ (Session.openStart_readerErrors _)
  | openPoll n => exact hput _ (Session.openPoll_readerErrors _ n)
  | openTimeout n => exact hput _ (Session.openTimeout_readerErrors _ n)
  | openCancel n =>
      refine hput _ ?_
      unfold Session.openCancel
      split <;> rfl
  | accept => exact hput _ (Session.acceptPoll_readerErrors _)
  | pollRead n remaining =>
      refine hput _ ?_
      unfold Session.pollRead
      split <;> rfl
  | pollWrite n buf =>
      refine hput _ ?_
      unfold Session.pollWrite
      split <;> rfl
  | shutdown n =>
      refine hput _ ?_
      unfold Session.pollShutdown
      split <;> rfl
  | reset n =>
      refine hput _ ?_
      unfold Session.reset
      split <;> rfl
  | drop n =>
      refine hput _ ?_
      unfold Session.dropHandle
      split <;> rfl
  | close => exact hput _ (Session.initiateShutdown_readerErrors _ _)
  | writerNext => exact hput _ (Session.writerNext_readerErrors _)
  | writerStop =>
      refine hput _ ?_
      unfold Session.writerStop
      split <;> rfl
  | readerNext => exact absurd rfl ha
  | readerStop =>
      refine hput _ ?_
      unfold Session.readerStop
      split <;> rfl
  | readerEof =>
      show ((S.eofTurn r').ends r).readerErrors = _
      unfold eofTurn
      split
      · exact hput _ (Session.initiateShutdown_readerErrors _ _)
      · rfl
  | closerNext =>
      refine hput _ ?_
      unfold Session.closerNext
      split <;> rfl
  | closerStop =>
      refine hput _ ?_
      unfold Session.closerStop
      split <;> rfl
  | keepaliveTick => exact hput _ (Session.keepaliveTick_readerErrors _)
  | keepalivePong => exact hput _ (Session.keepalivePong_readerErrors _)
  | keepaliveTimeout => exact hput _ (Session.keepaliveTimeout_readerErrors _)
  | keepaliveStop =>
      refine hput _ ?_
      unfold Session.keepaliveStop
      split <;> rfl

/-! ## The one protocol error -/

/-- The action dispatches a `Data` frame with payload to a stream that is
still registered although `Stream::reset` was called on it. -/
def lateData (S : System) (a : Action) : Bool :=
  match a.act, S.wire a.role.peer with
  | .readerNext, .data id _ payload :: _ =>
      !(S.ends a.role).readerDone && !payload.isEmpty &&
        match (S.ends a.role).find id with
        | some (_, c) => c.userReset
        | none => false
  | _, _ => false

/-- Data that comes too late comes after `Stream::reset`. -/
theorem Good.userReset_of_late (h : Good cfg S) {i : StreamId} {m : Msg}
    {rest : List Frame} (hdone : (S.ends r).readerDone = false)
    (hwire : S.wire r.peer = m.frame i :: rest) {n : Ref} {c : Cell}
    (hf : (S.ends r).find i = some (n, c))
    (hlate : Session.tooLate c.inner m) : c.userReset = true := by
  obtain ⟨hpay, hrecv⟩ := hlate
  obtain ⟨hc, rfl, hreg⟩ := (h.wf r).find_some hf
  have hok := (h.cellOk hc).ok
  have hread : c.inner.state.readOpen = false := by
    cases hreset : c.inner.state.reset with
    | true => exact (hok.resetShut hreset).1
    | false => simpa [StreamInner.canRecv, hreset] using hrecv
  have hl : ((S.pipe c.id).ends r).listening = true := by
    show (((S.ends r).endOf c.id).registered && !(S.ends r).readerDone) = true
    rw [hreg, hdone]
    rfl
  by_contra huser
  rw [Bool.not_eq_true] at huser
  have horder := (h.pipes c.id).sound.order r.peer
  rw [Role.peer_peer] at horder
  have hchan := chan_peer_cons hwire c.id
  rw [Frame.msg?_frame, if_pos rfl] at hchan
  refine hpay ((horder.shut c (h.cell hc) hl hread huser).2 m ?_)
  rw [hchan]
  exact List.mem_cons_self ..

/-- A message with payload is data. -/
theorem lateData_of_late {i : StreamId} {m : Msg} {rest : List Frame}
    (hdone : (S.ends r).readerDone = false)
    (hwire : S.wire r.peer = m.frame i :: rest) {n : Ref} {c : Cell}
    (hf : (S.ends r).find i = some (n, c)) (hpay : m.payload ≠ [])
    (huser : c.userReset = true) : S.lateData ⟨r, .readerNext⟩ = true := by
  cases m with
  | data payload =>
      simp only [Msg.payload] at hpay
      simp only [lateData, hwire, Msg.frame, hdone, hf, huser]
      simp [hpay]
  | _ => exact absurd rfl hpay

/-- **A dispatch that is not too late succeeds.**  Neither errors nor the
session's closing change, but for a `GoAway` from a peer that is closing. -/
theorem Good.dispatch_ok (h : Good cfg S)
    (hdone : (S.ends r).readerDone = false) {f : Frame} {rest : List Frame}
    (hwire : S.wire r.peer = f :: rest)
    (hlate : S.lateData ⟨r, .readerNext⟩ = false) :
    ∃ s, (S.ends r).dispatch f.normalize = (.ok (), s) ∧
      s.readerErrors = (S.ends r).readerErrors ∧
      (s.isClosing = (S.ends r).isClosing ∨
        (S.ends r.peer).isClosing = true) := by
  have hours := h.wire r.peer f (by rw [hwire]; exact List.mem_cons_self ..)
  cases hours with
  | msg i m hm =>
      rw [normalize_frame]
      have hcases := h.dispatched hwire
      generalize (S.ends r).dispatch (m.frame i) = result at hcases
      cases hcases with
      | refused hf hm hfull => exact ⟨_, rfl, rfl, .inl rfl⟩
      | ignored hf hm => exact ⟨_, rfl, rfl, .inl rfl⟩
      | accepted hm hins => exact ⟨_, rfl, rfl, .inl rfl⟩
      | late hf hlate' =>
          have huser := h.userReset_of_late hdone hwire hf hlate'
          rw [lateData_of_late hdone hwire hf hlate'.1 huser] at hlate
          cases hlate
      | heard hf hm hlate' => exact ⟨_, rfl, rfl, .inl rfl⟩
  | ping nonce => exact ⟨_, rfl, rfl, .inl rfl⟩
  | pong nonce => exact ⟨_, rfl, rfl, .inl rfl⟩
  | goAway code hcl =>
      exact ⟨_, rfl, Session.initiateShutdown_readerErrors _ _, .inr hcl⟩

section SameConfig

variable {c : Config} {S : System} {r : Role}

/-- With one configuration no frame on the wire is too long. -/
theorem Good.readerNext_same (h : Good (fun _ => c) S) {f : Frame}
    (hf : f ∈ S.wire r.peer) :
    (S.ends r).readerNext f =
      Session.settle ((S.ends r).dispatch f.normalize) := by
  have hle := (h.wire r.peer f hf).payloadLen_le
  rw [h.readerNext hf, if_neg]
  unfold Session.codec
  rw [(h.wf r).config]
  exact Nat.not_lt.mpr hle

/-- The reader's turn, when nothing comes too late. -/
theorem Good.readerTurn_ok (h : Good (fun _ => c) S)
    (hlate : S.lateData ⟨r, .readerNext⟩ = false) :
    ((S.readerTurn r).ends r).readerErrors = (S.ends r).readerErrors ∧
      (((S.readerTurn r).ends r).isClosing = (S.ends r).isClosing ∨
        (S.ends r.peer).isClosing = true) := by
  by_cases hidle : (S.ends r).readerDone = true ∨ S.wire r.peer = []
  · rw [readerTurn_idle hidle]
    exact ⟨rfl, .inl rfl⟩
  rw [not_or, Bool.not_eq_true] at hidle
  obtain ⟨hdone, hne⟩ := hidle
  obtain ⟨f, rest, hwire⟩ := List.exists_cons_of_ne_nil hne
  obtain ⟨s, hd, herr, hcl⟩ := h.dispatch_ok hdone hwire hlate
  rw [readerTurn_ends hdone hwire,
    h.readerNext_same (by rw [hwire]; exact List.mem_cons_self ..), hd]
  exact ⟨herr, hcl⟩

/-- With frames of at most 16 MiB the writer never closes its session. -/
theorem Good.writerTurn_ok (h : Good (fun _ => c) S)
    (hmax : c.maxFrameSize.toNat ≤ absoluteMaxPayload.toNat)
    (hcl : (S.ends r).isClosing = false) :
    ((S.writerTurn r).ends r).isClosing = false := by
  have hrun : (S.ends r).writer = .running := by
    by_contra hne
    rw [(h.wf r).writerClosing hne] at hcl
    cases hcl
  show ((Function.update S.ends r (S.ends r).writerNext.2) r).isClosing = false
  rw [Function.update_self]
  cases hqueue : (S.ends r).out.queue with
  | nil =>
      simp only [Session.writerNext, hrun, hqueue]
      exact hcl
  | cons f rest =>
      have hlen := ((h.wf r).out f
        (by rw [hqueue]; exact List.mem_cons_self ..)).payloadLen_le
      rw [writerNext_running hrun hqueue, if_neg]
      · exact hcl
      · unfold Session.codec
        rw [(h.wf r).config, FrameCodec.new_maxPayload]
        omega

/-- **No session begins to close by itself.** -/
theorem Good.step_open (h : Good (fun _ => c) S)
    (hmax : c.maxFrameSize.toNat ≤ absoluteMaxPayload.toNat) {a : Action}
    (hlate : S.lateData a = false)
    (hact : a.act ≠ .close ∧ a.act ≠ .keepaliveTimeout)
    (hopen : ∀ r, (S.ends r).isClosing = false) (r : Role) :
    ((S.step a).ends r).isClosing = false := by
  by_contra hcl
  rw [Bool.not_eq_false] at hcl
  rcases h.closing_step a hcl with hcl' | ⟨rfl, hmay⟩
  · rw [hopen r] at hcl'
    cases hcl'
  obtain ⟨r, act⟩ := a
  cases act with
  | close => exact hact.1 rfl
  | keepaliveTimeout => exact hact.2 rfl
  | writerNext =>
      have hw := h.writerTurn_ok hmax (hopen r)
      rw [show S.step ⟨r, .writerNext⟩ = S.writerTurn r from rfl, hw] at hcl
      cases hcl
  | readerNext =>
      rw [show S.step ⟨r, .readerNext⟩ = S.readerTurn r from rfl] at hcl
      rcases (h.readerTurn_ok hlate).2 with hsame | hpeer
      · rw [hsame, hopen r] at hcl
        cases hcl
      · rw [hopen r.peer] at hpeer
        cases hpeer
  | readerEof =>
      rw [show S.step ⟨r, .readerEof⟩ = S.eofTurn r from rfl] at hcl
      unfold eofTurn at hcl
      split at hcl
      · rename_i heof
        have hpeer := (h.wf r.peer).writerClosing (by
          rcases heof.2.2 with hw | hw <;> rw [hw] <;> decide)
        rw [hopen r.peer] at hpeer
        cases hpeer
      · rw [hopen r] at hcl
        cases hcl
  | _ => cases hmay

/-- **Two endpoints that run this code with one configuration do not kill
each other's session.**  In every run in which no data is dispatched to a
stream after `Stream::reset` and before its removal, no reader ever fails;
and unless somebody closes a session or a keepalive probe goes unanswered,
no session ever begins to shut down. -/
theorem no_protocol_error (c : Config)
    (hmax : c.maxFrameSize.toNat ≤ absoluteMaxPayload.toNat)
    (as : List Action)
    (hlate : Along step (fun S a => S.lateData a = false)
      (init fun _ => c) as) :
    (∀ r, ((after (fun _ => c) as).ends r).readerErrors = []) ∧
      ((∀ a ∈ as, a.act ≠ .close ∧ a.act ≠ .keepaliveTimeout) →
        ∀ r, ((after (fun _ => c) as).ends r).isClosing = false) := by
  constructor
  · refine (run_invariant step (I := fun S => Good (fun _ => c) S ∧
      ∀ r, (S.ends r).readerErrors = []) ?_ as _
      ⟨good_init _, fun _ => rfl⟩ hlate).2
    rintro S a ⟨h, herr⟩ hlate
    refine ⟨(h.turn a).good h, fun r => ?_⟩
    by_cases ha : a.act = .readerNext
    · obtain ⟨r', act⟩ := a
      obtain rfl : act = .readerNext := ha
      rcases Role.eq_or_eq_peer r' r with rfl | rfl
      · exact (h.readerTurn_ok hlate).1.trans (herr _)
      · exact (congrArg _ (readerTurn_peer S r')).trans (herr _)
    · exact (step_readerErrors ha r).trans (herr r)
  · intro hacts
    refine (run_invariant step (I := fun S => Good (fun _ => c) S ∧
      ∀ r, (S.ends r).isClosing = false) ?_ as _
      ⟨good_init _, fun _ => rfl⟩ (hlate.and_forall _ hacts)).2
    rintro S a ⟨h, hopen⟩ ⟨hlate, hact⟩
    exact ⟨(h.turn a).good h, h.step_open hmax hlate hact hopen⟩

/-- The client writes to a stream that the server resets before it has read
what is on the wire. -/
def resetRace : List Action :=
  [⟨.client, .openStart⟩, ⟨.client, .writerNext⟩, ⟨.server, .readerNext⟩,
    ⟨.server, .accept⟩, ⟨.server, .writerNext⟩, ⟨.client, .readerNext⟩,
    ⟨.client, .openPoll 0⟩, ⟨.client, .pollWrite 0 [1]⟩,
    ⟨.client, .writerNext⟩, ⟨.server, .reset 0⟩]

/-- Reset first and read afterwards: the reader fails and the whole session
shuts down. -/
theorem resetRace_fails :
    ((after (fun _ => Config.default)
        (resetRace ++ [⟨.server, .readerNext⟩])).ends .server).readerErrors =
      [.protocol "data after FIN"] ∧
    ((after (fun _ => Config.default)
        (resetRace ++ [⟨.server, .readerNext⟩])).ends .server).isClosing =
      true := by
  decide +kernel

/-- With the closer's step in between, nothing happens. -/
theorem no_protocol_error_resetRace :
    (∀ r, ((after (fun _ => Config.default) (resetRace ++
        [⟨.server, .closerNext⟩, ⟨.server, .readerNext⟩])).ends
          r).readerErrors = []) ∧
      ∀ r, ((after (fun _ => Config.default) (resetRace ++
        [⟨.server, .closerNext⟩, ⟨.server, .readerNext⟩])).ends
          r).isClosing = false := by
  obtain ⟨herr, hopen⟩ := no_protocol_error Config.default (by decide)
    (resetRace ++ [⟨.server, .closerNext⟩, ⟨.server, .readerNext⟩])
    (by decide +kernel)
  exact ⟨herr, hopen (by decide)⟩

end SameConfig

end System

end NetMux
