import NetMux.Endpoint.Directory

/-!
# Streams do not interfere

All streams of a session share one registry, one outbound queue and one
dispatcher.  A `Facet` is what the session is for one of them: the stream as
the registry has it and the outbound frames that carry its id.  A frame of the
stream moves its facet by `Facet.receive`, which reads nothing else of the
session, and frames of other streams and the closer's work on other ids do not
move it.  Two sequences of frames that agree on the frames of the stream then
leave it with the same facet.
-/

namespace NetMux

open Lib.Run

/-- What is done to a session: its reader dispatches a frame, or its closer
takes the next id. -/
inductive Turn where
  | frame (f : Frame)
  | closer
  deriving DecidableEq, Repr

namespace Turn

/-- The frame, when it is one that carries the given id. -/
def carrying (i : StreamId) : Turn → Option Frame
  | frame f => if f.streamId? = some i then some f else none
  | closer => none

end Turn

/-- A session as one of its streams sees it. -/
structure Facet where
  /-- The registered stream. -/
  stream : Option (Ref × Cell)
  /-- The outbound frames with its id that are still queued. -/
  sent : List Frame
  /-- Whether the outbound queue has lost its receiver. -/
  closed : Bool
  deriving DecidableEq, Repr

namespace Facet

/-- The next frame with the stream's id arrives.  A `SYN` that is not an error
is refused, whatever else the frame carries. -/
def receive (v : Facet) (f : Frame) : Facet :=
  match v.stream with
  | none => v
  | some (n, c) =>
      match f with
      | .data id flags payload =>
          if flags.contains Flags.syn then
            { v with sent := v.sent ++ if v.closed then [] else [.rst id] }
          else
            let inner := (Session.deliverTo c.inner flags payload).2.1
            { v with stream := some (n, { c with inner := inner }) }
      | .windowUpdate _ _ delta =>
          let inner := c.inner.grantSendCredit delta
          { v with stream := some (n, { c with inner := inner }) }
      | .ping _ _ => v
      | .goAway _ => v

end Facet

namespace Session

def turn (s : Session) : Turn → Session
  | .frame f => (s.dispatch f).2
  | .closer => s.closerNext

/-- The turn is a frame that is no `GoAway` and that `dispatch` has no error
for, or a step of the closer for another id. -/
def Sparing (i : StreamId) (s : Session) : Turn → Prop
  | .frame f => (∀ code, f ≠ .goAway code) ∧ (s.dispatch f).1 = .ok ()
  | .closer => s.closer.queue.head? ≠ some i

instance (i : StreamId) (s : Session) (x : Turn) : Decidable (s.Sparing i x) :=
  match x with
  | .frame (.goAway code) => isFalse fun h => h.1 code rfl
  | .frame (.data id flags payload) =>
      decidable_of_iff ((s.dispatch (.data id flags payload)).1 = .ok ())
        ⟨fun h => ⟨nofun, h⟩, fun h => h.2⟩
  | .frame (.windowUpdate _ _ _) => isTrue ⟨nofun, rfl⟩
  | .frame (.ping _ _) => isTrue ⟨nofun, rfl⟩
  | .closer => inferInstanceAs (Decidable (_ ≠ _))

/-- The stream is registered, under this id only. -/
def Alone (i : StreamId) (n : Ref) (s : Session) : Prop :=
  s.registry.get i = some n ∧ n < s.streams.length ∧
    ∀ j, s.registry.get j = some n → j = i

def facet (i : StreamId) (s : Session) : Facet where
  stream := s.find i
  sent := s.out.queue.filter fun f => f.streamId? = some i
  closed := s.out.closed

variable {i : StreamId} {n : Ref} {s s' : Session}

/-! ## What other streams' frames do -/

/-- Another session has the stream where this one has it, and has queued no
other frames of it. -/
structure SameFor (i : StreamId) (n : Ref) (s s' : Session) : Prop where
  alone : Alone i n s → Alone i n s'
  facet : Alone i n s → s'.facet i = s.facet i

namespace SameFor

theorem refl (s : Session) : SameFor i n s s := ⟨id, fun _ => rfl⟩

theorem trans {s'' : Session} (h₁ : SameFor i n s s')
    (h₂ : SameFor i n s' s'') : SameFor i n s s'' where
  alone := fun h => h₂.alone (h₁.alone h)
  facet := fun h => (h₂.facet (h₁.alone h)).trans (h₁.facet h)

/-- The registry, the stream and the queue of outbound frames say all. -/
theorem of_parts (hreg : ∀ j, s'.registry.get j = some n →
      s.registry.get j = some n)
    (hget : s'.registry.get i = s.registry.get i)
    (hlen : s.streams.length ≤ s'.streams.length)
    (hcell : n < s.streams.length → s'.streams[n]? = s.streams[n]?)
    (hsent : (s'.facet i).sent = (s.facet i).sent)
    (hclosed : s'.out.closed = s.out.closed) : SameFor i n s s' where
  alone := fun ⟨h, hlt, honly⟩ =>
    ⟨hget.trans h, hlt.trans_le hlen, fun j hj => honly j (hreg j hj)⟩
  facet := fun ⟨h, hlt, _⟩ => by
    have hfind : s'.find i = s.find i := by
      simp only [find, hget, h, hcell hlt]
    simp only [Session.facet] at hsent ⊢
    rw [hfind, hsent, hclosed]

/-- A frame of another stream, or of none, is queued. -/
theorem enqueue (s : Session) {f : Frame} (hf : f.streamId? ≠ some i) :
    SameFor i n s (s.enqueue f) := by
  refine of_parts (fun _ h => h) rfl le_rfl (fun _ => rfl) ?_
    (Chan.send_closed _ _)
  show (s.out.send f).queue.filter _ = s.out.queue.filter _
  rw [Chan.send_eq_sendAll, Chan.sendAll_queue]
  cases s.out.closed <;> simp [hf]

end SameFor

/-- A `Data` frame that is no error makes its stream send nothing. -/
theorem deliverTo_frames {stream : StreamInner} {flags : Flags}
    {payload : Bytes} (h : (deliverTo stream flags payload).1 = .ok ()) :
    (deliverTo stream flags payload).2.2.frames = [] := by
  unfold deliverTo at h ⊢
  dsimp only at h ⊢
  generalize (if flags.contains Flags.ack then stream.markAcked else stream) =
    acked at h ⊢
  split
  · rename_i hlate
    rw [if_pos hlate] at h
    cases h
  · dsimp only
    split <;> rfl

/-- Another stream moves on. -/
theorem SameFor.update {m : Ref} (hm : m ≠ n) (c : Cell) {emit : Emit}
    (hemit : emit.frames = []) : SameFor i n s (s.update m c emit) := by
  refine of_parts (fun _ h => h) rfl (by simp [Session.update])
    (fun _ => List.getElem?_set_ne hm) ?_ (Chan.sendAll_closed _ _)
  simp [Session.facet, Session.update, hemit]

theorem SameFor.handleStream {id : StreamId} (hid : id ≠ i)
    (halone : Alone i n s) {flags : Flags} {payload : Bytes}
    (hok : (s.handleStream id flags payload).1 = .ok ()) :
    SameFor i n s (s.handleStream id flags payload).2 := by
  unfold Session.handleStream at hok ⊢
  cases hf : s.find id with
  | none =>
      dsimp only
      split
      · exact .enqueue s fun h => hid (Option.some.inj h)
      · exact .refl s
  | some p =>
      obtain ⟨m, c⟩ := p
      rw [hf] at hok
      have hm : m ≠ n := by
        rintro rfl
        exact hid (halone.2.2 id (find_some hf).1)
      exact .update hm _ (deliverTo_frames hok)

/-- A stream is made, and registered under an id that was free. -/
theorem SameFor.append (hlt : n < s.streams.length)
    {c : Cell} (hstreams : s'.streams = s.streams ++ [c])
    (hreg : ∀ j m, j ≠ i → s'.registry.get j = some m →
      s.registry.get j = some m ∨ m = s.streams.length)
    (hget : s'.registry.get i = s.registry.get i) (hout : s'.out = s.out) :
    SameFor i n s s' := by
  refine of_parts ?_ hget (by simp [hstreams]) ?_ ?_ (by rw [hout])
  · intro j hj
    by_cases hji : j = i
    · rw [hji] at hj ⊢
      exact hget.symm.trans hj
    · exact (hreg j n hji hj).resolve_right hlt.ne
  · intro _
    rw [hstreams, List.getElem?_append_left hlt]
  · simp [Session.facet, hout]

/-- **A `SYN` of another stream**: it is refused, or makes a stream. -/
theorem SameFor.handleSyn {id : StreamId} (hid : id ≠ i)
    (hlt : n < s.streams.length) :
    match s.handleSyn id with
    | .inl returned => SameFor i n s returned.2
    | .inr made => SameFor i n s made := by
  have hrefuse : ∀ t : Session, SameFor i n t (t.enqueue (.rst id)) :=
    fun t => .enqueue t fun h => hid (Option.some.inj h)
  rcases s.handleSyn_cases id with ⟨e, heq⟩ | heq | ⟨g, -, -, hins, hmade⟩
  · rw [heq]
    exact .refl s
  · rw [heq]
    exact hrefuse s
  · have hget := (StreamRegistry.insert_ok hins).2
    have hnew : ∀ j m, g.get j = some m →
        s.registry.get j = some m ∨ m = s.streams.length := by
      intro j m hj
      rw [hget] at hj
      split at hj
      · cases hj
        exact .inr rfl
      · exact .inl hj
    have hi : g.get i = s.registry.get i :=
      (hget i).trans (if_neg (Ne.symm hid))
    rcases hmade with ⟨-, heq⟩ | ⟨-, heq⟩
    · rw [heq]
      refine SameFor.trans ?_ (hrefuse (s.turningAway id g))
      refine .append hlt rfl ?_ ?_ rfl
      · exact fun j m _ hj => hnew j m (StreamRegistry.get_of_remove hj).1
      · refine Eq.trans ?_ hi
        exact (StreamRegistry.get_remove g id i).trans (if_neg (Ne.symm hid))
    · rw [heq]
      exact .append hlt rfl (fun j m _ hj => hnew j m hj) hi rfl

/-- **A frame of another stream does not touch the stream.** -/
theorem SameFor.dispatch {f : Frame} (hf : f.streamId? ≠ some i)
    (halone : Alone i n s) (hgo : ∀ code, f ≠ .goAway code)
    (hok : (s.dispatch f).1 = .ok ()) : SameFor i n s (s.dispatch f).2 := by
  cases f with
  | data id flags payload =>
      have hid : id ≠ i := fun h => hf (congrArg some h)
      have hsyn := SameFor.handleSyn (s := s) hid halone.2.1
      simp only [Session.dispatch, Session.handleData] at hok ⊢
      split_ifs at hok ⊢ with hzero hflag
      · cases heq : s.handleSyn id with
        | inl returned =>
            rw [heq] at hsyn
            exact hsyn
        | inr made =>
            rw [heq] at hsyn hok
            exact hsyn.trans (.handleStream hid (hsyn.alone halone) hok)
      · exact .handleStream hid halone hok
  | windowUpdate id flags delta =>
      have hid : id ≠ i := fun h => hf (congrArg some h)
      show SameFor i n s (s.handleWindowUpdate id delta)
      unfold Session.handleWindowUpdate
      cases hfind : s.find id with
      | none => exact .refl s
      | some p =>
          obtain ⟨m, c⟩ := p
          refine .update ?_ _ rfl
          rintro rfl
          exact hid (halone.2.2 id (find_some hfind).1)
  | ping flags nonce =>
      show SameFor i n s (s.handlePing flags nonce)
      unfold Session.handlePing
      split
      · exact .of_parts (fun _ h => h) rfl le_rfl (fun _ => rfl) rfl rfl
      · refine .enqueue s fun h => ?_
        cases h
  | goAway code => exact absurd rfl (hgo code)

/-- A step of the closer for another id. -/
theorem SameFor.closerNext (h : s.closer.queue.head? ≠ some i) :
    SameFor i n s s.closerNext := by
  unfold Session.closerNext
  split
  · exact .refl s
  · rename_i id rest hqueue
    have hid : i ≠ id := by
      rintro rfl
      exact h (by rw [hqueue]; rfl)
    refine .of_parts (fun j hj => (StreamRegistry.get_of_remove hj).1)
      ?_ le_rfl (fun _ => rfl) rfl rfl
    exact (StreamRegistry.get_remove s.registry id i).trans (if_neg hid)

/-! ## What its own frames do -/

theorem Alone.find (h : Alone i n s) : ∃ c, s.find i = some (n, c) := by
  obtain ⟨hget, hlt, -⟩ := h
  exact ⟨s.streams[n], by simp [Session.find, hget, hlt]⟩

/-- The stream moves on without sending anything. -/
theorem update_own (h : Alone i n s) (c' : Cell) {emit : Emit}
    (hemit : emit.frames = []) :
    Alone i n (s.update n c' emit) ∧
      (s.update n c' emit).facet i =
        { s.facet i with stream := some (n, c') } := by
  obtain ⟨hget, hlt, honly⟩ := h
  have hfind : (s.update n c' emit).find i = some (n, c') := by
    simp [Session.find, Session.update, hget, hlt]
  refine ⟨⟨hget, by simpa [Session.update] using hlt, honly⟩, ?_⟩
  simp only [Session.facet, hfind]
  simp [Session.update, hemit]

theorem facet_enqueue_rst (s : Session) (i : StreamId) :
    (s.enqueue (.rst i)).facet i =
      { s.facet i with
        sent := (s.facet i).sent ++
          if (s.facet i).closed then [] else [.rst i] } := by
  have hsent : ((s.enqueue (.rst i)).facet i).sent = (s.facet i).sent ++
      if (s.facet i).closed then [] else [.rst i] := by
    simp only [Session.facet, Session.enqueue, Chan.send_eq_sendAll,
      Chan.sendAll_queue, List.filter_append]
    by_cases hclosed : s.out.closed = true <;>
      simp [hclosed, Frame.rst, Frame.streamId?]
  rw [← hsent]
  simp only [Session.facet, Session.enqueue, Chan.send_closed]
  rfl

/-- A `SYN` with the id of a registered stream is an error or is refused. -/
theorem handleSyn_own (h : Alone i n s) :
    (∃ e, s.handleSyn i = .inl (.error e, s)) ∨
      s.handleSyn i = .inl (.ok (), s.enqueue (.rst i)) := by
  rcases s.handleSyn_cases i with herr | heq | ⟨g, -, -, hins, -⟩
  · exact .inl herr
  · exact .inr heq
  · have hfree := (StreamRegistry.insert_ok hins).1
    rw [h.1] at hfree
    cases hfree

/-- **A frame of the stream moves its facet on, and reads nothing else.** -/
theorem dispatch_own {f : Frame} (hf : f.streamId? = some i)
    (h : Alone i n s) (hok : (s.dispatch f).1 = .ok ()) :
    Alone i n (s.dispatch f).2 ∧
      (s.dispatch f).2.facet i = (s.facet i).receive f := by
  obtain ⟨c, hfind⟩ := h.find
  have hstream : (s.facet i).stream = some (n, c) := hfind
  cases f with
  | data id flags payload =>
      obtain rfl : id = i := Option.some.inj hf
      simp only [Session.dispatch, Session.handleData] at hok ⊢
      split_ifs at hok ⊢ with hzero hflag
      · rcases handleSyn_own h with ⟨e, heq⟩ | heq
        · rw [heq] at hok
          cases hok
        · rw [heq]
          refine ⟨h, (facet_enqueue_rst s id).trans ?_⟩
          simp only [Facet.receive, hstream, hflag, if_true]
      · unfold Session.handleStream at hok ⊢
        rw [hfind] at hok ⊢
        have hown := update_own h
          { c with inner := (deliverTo c.inner flags payload).2.1 }
          (deliverTo_frames hok)
        refine ⟨hown.1, hown.2.trans ?_⟩
        simp [Facet.receive, hstream, hflag]
  | windowUpdate id flags delta =>
      obtain rfl : id = i := Option.some.inj hf
      show Alone id n (s.handleWindowUpdate id delta) ∧
        (s.handleWindowUpdate id delta).facet id = _
      unfold Session.handleWindowUpdate
      rw [hfind]
      have hown := update_own h
        { c with inner := c.inner.grantSendCredit delta }
        (show Emit.none.frames = [] from rfl)
      refine ⟨hown.1, hown.2.trans ?_⟩
      simp [Facet.receive, hstream]
  | ping flags nonce => cases hf
  | goAway code => cases hf

/-! ## Whole sequences -/

theorem turn_facet {x : Turn} (h : Alone i n s) (hx : s.Sparing i x) :
    Alone i n (s.turn x) ∧
      (s.turn x).facet i =
        (x.carrying i).elim (s.facet i) (s.facet i).receive := by
  cases x with
  | closer =>
      have hsame : SameFor i n s s.closerNext := .closerNext hx
      exact ⟨hsame.alone h, hsame.facet h⟩
  | frame f =>
      by_cases hf : f.streamId? = some i
      · simp only [Turn.carrying, hf, if_true]
        exact dispatch_own hf h hx.2
      · simp only [Turn.carrying, hf, if_false]
        have hsame := SameFor.dispatch hf h hx.1 hx.2
        exact ⟨hsame.alone h, hsame.facet h⟩

/-- What becomes of a stream, computed from its own frames alone. -/
theorem run_facet {xs : List Turn} (h : Alone i n s)
    (hrun : Along turn (Sparing i) s xs) :
    Alone i n (run turn s xs) ∧
      (run turn s xs).facet i =
        run Facet.receive (s.facet i) (xs.filterMap (Turn.carrying i)) := by
  have hkeep : ∀ t x, Alone i n t → t.Sparing i x → Alone i n (t.turn x) :=
    fun t x ht hx => (turn_facet ht hx).1
  refine ⟨run_invariant turn hkeep xs s h hrun, ?_⟩
  exact run_view turn (Session.facet i) (Turn.carrying i) Facet.receive
    hkeep (fun t x ht hx => (turn_facet ht hx).2) xs s h hrun

/-- **Streams do not interfere.**  Take any state of a session and any stream
in its registry, and two sequences of inbound frames, interleaved with steps
of the closer for other ids, in which no frame is a `GoAway` or an error for
`dispatch`.  If they have the same subsequence of `Data` and `WindowUpdate`
frames with the stream's id, then after both of them the stream is registered,
is the same in all its parts (the buffered bytes, the send credit, the flags),
and the same frames with its id have been queued.  The condition on the state
says that the registry does not have the stream under a second id, which is
so in every state of a session (`find_only_id`). -/
theorem streams_isolated (s : Session) (i : StreamId) (n : Ref) (c : Cell)
    (hfind : s.find i = some (n, c))
    (honly : ∀ j, s.registry.get j = some n → j = i) (xs ys : List Turn)
    (hxs : Along turn (Sparing i) s xs) (hys : Along turn (Sparing i) s ys)
    (hsame : xs.filterMap (Turn.carrying i) =
      ys.filterMap (Turn.carrying i)) :
    ∃ c', (run turn s xs).find i = some (n, c') ∧
      (run turn s ys).find i = some (n, c') ∧
      (run turn s xs).out.queue.filter (fun f => f.streamId? = some i) =
        (run turn s ys).out.queue.filter (fun f => f.streamId? = some i) := by
  obtain ⟨hget, hc⟩ := find_some hfind
  have halone : Alone i n s :=
    ⟨hget, (List.getElem?_eq_some_iff.mp hc).1, honly⟩
  obtain ⟨hx, hfacetx⟩ := run_facet halone hxs
  obtain ⟨hy, hfacety⟩ := run_facet halone hys
  have hfacets : (run turn s xs).facet i = (run turn s ys).facet i := by
    rw [hfacetx, hfacety, hsame]
  obtain ⟨c', hfound⟩ := hx.find
  refine ⟨c', hfound, ?_, congrArg Facet.sent hfacets⟩
  exact (congrArg Facet.stream hfacets).symm.trans hfound

/-- In every state that a session reaches, whatever its users and tasks do
and whatever the peer sends, a stream is registered under one id at most. -/
theorem find_only_id {cfg : Config} {role : Role} {zs : List Input} {c : Cell}
    (hfind : (run take (new cfg role) zs).find i = some (n, c)) :
    ∀ j, (run take (new cfg role) zs).registry.get j = some n → j = i := by
  have hindexed : (run take (new cfg role) zs).directory.Indexed := by
    refine directory_invariant (I := Directory.Indexed)
      (P := fun _ _ => True) (fun _ _ hget => nomatch hget) ?_ ?_
    · exact fun s x _ _ _ _ _ e D D' hD _ hstep => hD.step hstep
    · exact along_true _ _ _
  intro j hj
  obtain ⟨e, he, rfl⟩ := hindexed j n hj
  obtain ⟨e', he', rfl⟩ := hindexed i n (find_some hfind).1
  rw [he] at he'
  cases he'
  rfl

/-- A server with two streams of its peer. -/
def pairState : Session :=
  run take (new Config.default .server) [.frame (.syn 1), .frame (.syn 3)]

/-- Frames of stream 1 between frames of others, and stream 3 is removed. -/
def busyTurns : List Turn :=
  [.frame (.rst 3), .frame (.data 1 Flags.empty [7]), .closer,
    .frame (.fin 9), .frame (.mkPing 5), .frame (.mkWindowUpdate 1 10),
    .frame (.syn 5)]

/-- Only the frames of stream 1. -/
def quietTurns : List Turn :=
  [.frame (.data 1 Flags.empty [7]), .frame (.mkWindowUpdate 1 10)]

theorem streams_isolated_pairState :
    ((run turn pairState busyTurns).find 1).map
        (fun p => p.2.inner.recv.contents) = some [7] ∧
      (run turn pairState busyTurns).find 1 =
        (run turn pairState quietTurns).find 1 := by
  have hfind : pairState.find 1 =
      some (0, Cell.new (StreamInner.new 1 .remotely Config.default) .queued) := by
    decide +kernel
  obtain ⟨c', hx, hy, -⟩ := streams_isolated pairState 1 0 _ hfind
    (find_only_id hfind) busyTurns quietTurns (by decide +kernel)
    (by decide +kernel) (by decide +kernel)
  exact ⟨by decide +kernel, hx.trans hy.symm⟩

end Session

end NetMux
