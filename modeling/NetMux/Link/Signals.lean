import NetMux.Concurrent.Writer
import NetMux.Link.Farewell

/-!
# The session-scoped frames between two endpoints

Pings, their replies and `GoAway` travel on the same wires as the frames of
streams, but they see nothing of them.  `Signalling` is what they see of the
system: the two controls, and the session-scoped frames on the two wires.
`System.signalling_step` says once what an action of the system is to them,
and the rest of the module is about `Signalling` alone:

* `Signalling.Announced`: a session says `GoAway` at most once, and only when
  it is closing; nobody hears it from a session that did not say it;
* `Signalling.Paired`: while neither session is closing, the probe a keepalive
  task waits for exists in exactly one place, as a request under way, as a
  reply under way, or as a reply in the task's queue; when it waits for none,
  there is none.
-/

namespace NetMux

open Lib Lib.Run

/-- Both controls and the session-scoped frames on the wires. -/
structure Signalling where
  ends : Role → Control
  wire : Role → List Frame

namespace Signalling

variable {T T' : Signalling} {r q : Role}

/-- Replace one control. -/
def put (T : Signalling) (r : Role) (c : Control) : Signalling :=
  { T with ends := Function.update T.ends r c }

/-- The frames sent by `r` that its peer has not read. -/
def underWay (T : Signalling) (r : Role) : List Frame :=
  T.wire r ++ (T.ends r).out.queue

/-- The writer hands frames to the wire. -/
def wrote (T : Signalling) (q : Role) (fs rest : List Frame) : Signalling where
  ends := Function.update T.ends q
    { T.ends q with out := ⟨rest, (T.ends q).out.closed⟩ }
  wire := Function.update T.wire q (T.wire q ++ fs)

/-- The reader goes on with what is left on the wire to it. -/
def left (T : Signalling) (q : Role) (c : Control) (rest : List Frame) :
    Signalling where
  ends := Function.update T.ends q c
  wire := Function.update T.wire q.peer rest

/-- One step of one side, `q`. -/
inductive Step (q : Role) (T : Signalling) : Signalling → Prop where
  | perform (a : Act) : Step q T (T.put q ((T.ends q).perform a))
  | write {fs rest : List Frame}
      (hqueue : (T.ends q).out.queue = fs ++ rest) :
      Step q T (T.wrote q fs rest)
  | refuse {rest : List Frame} (hrest : rest <:+ (T.ends q).out.queue) :
      Step q T (T.put q ((T.ends q).refused rest))
  | flush (hclosing : (T.ends q).isClosing = true)
      (hqueue : (T.ends q).out.queue = []) :
      Step q T (T.put q { T.ends q with writer := .flushed })
  /-- A frame its codec refuses ends the drain, and the rest is lost. -/
  | abort (hclosing : (T.ends q).isClosing = true) {rest : List Frame}
      (hrest : rest <:+ (T.ends q).out.queue) :
      Step q T (T.put q { T.ends q with
        out := ⟨rest, (T.ends q).out.closed⟩
        writer := .flushed
        encodeFailed := true })
  | exit (hclosing : (T.ends q).isClosing = true)
      (hphase : (T.ends q).writer = .flushed) :
      Step q T (T.put q
        { T.ends q with out := (T.ends q).out.close, writer := .exited })
  | read {f : Frame} {rest : List Frame} (hwire : T.wire q.peer = f :: rest) :
      Step q T (T.left q ((T.ends q).receive f.normalize) rest)
  | readerEnd (code : ErrorCode) {rest : List Frame}
      (hrest : rest <:+ T.wire q.peer) :
      Step q T (T.left q ((T.ends q).readerEnd code) rest)

@[simp] theorem put_ends_self (c : Control) : (T.put r c).ends r = c := by
  simp [put]

theorem put_ends_peer (c : Control) :
    (T.put r c).ends r.peer = T.ends r.peer := by
  simp [put]

@[simp] theorem put_wire (c : Control) : (T.put r c).wire = T.wire := rfl

theorem left_wire (T : Signalling) (r : Role) (c : Control) :
    T.left r c (T.wire r.peer) = T.put r c :=
  congrArg (Signalling.mk _) (Function.update_eq_self r.peer T.wire)

theorem left_ends_self (T : Signalling) (r : Role) (c : Control)
    (rest : List Frame) : (T.left r c rest).ends r = c := by
  simp [left]

theorem left_wire_self (T : Signalling) (r : Role) (c : Control)
    (rest : List Frame) : (T.left r c rest).wire r = T.wire r := by
  simp [left]

theorem left_wire_peer (T : Signalling) (r : Role) (c : Control)
    (rest : List Frame) : (T.left r c rest).wire r.peer = rest := by
  simp [left]

/-- Only the side that acts changes. -/
theorem Step.ends_peer (h : Step q T T') : T'.ends q.peer = T.ends q.peer := by
  cases h <;> simp [put, wrote, left]

end Signalling

/-! ## What the system does to it -/

theorem Frame.isSignal_normalize (f : Frame) :
    f.normalize.isSignal = f.isSignal := by
  cases f <;> rfl

theorem Control.receive_stream {f : Frame} (c : Control)
    (hf : f.isSignal = false) : c.receive f = c := by
  cases f <;> first | rfl | cases hf

theorem signals_cons (f : Frame) (fs : List Frame) :
    signals (f :: fs) = if f.isSignal then f :: signals fs else signals fs := by
  simp [signals, List.filter_cons]

namespace System

variable {cfg : Role → Config} {S : System} {r : Role}

/-- What the session-scoped frames see. -/
def signalling (S : System) : Signalling where
  ends := fun r => (S.ends r).control
  wire := fun r => signals (S.wire r)

theorem signalling_put (s : Session) :
    (S.put r s).signalling = S.signalling.put r s.control := by
  simp only [signalling, put, Signalling.put, Signalling.mk.injEq, and_true]
  funext r'
  by_cases hr : r' = r
  · subst hr
    simp
  · simp [hr]

theorem signalling_putWrite (s : Session) (fs : List Frame) :
    (S.putWrite r s fs).signalling =
      { ends := Function.update S.signalling.ends r s.control
        wire := Function.update S.signalling.wire r
          (S.signalling.wire r ++ signals fs) } := by
  simp only [signalling, putWrite, Signalling.mk.injEq]
  constructor <;>
  · funext r'
    by_cases hr : r' = r
    · subst hr
      simp
    · simp [hr]

theorem signalling_putRead (s : Session) (rest : List Frame) :
    (S.putRead r s rest).signalling =
      S.signalling.left r s.control (signals rest) := by
  simp only [signalling, putRead, Signalling.left, Signalling.mk.injEq]
  constructor
  · funext r'
    by_cases hr : r' = r
    · subst hr
      simp
    · simp [hr]
  · funext r'
    by_cases hr : r' = r.peer
    · subst hr
      simp
    · simp [hr]

/-- A session whose control did not change. -/
theorem signalling_put_same {s : Session}
    (h : s.control = (S.ends r).control) :
    (S.put r s).signalling = S.signalling := by
  rw [signalling_put, h]
  exact congrArg (fun ends => Signalling.mk ends S.signalling.wire)
    (Function.update_eq_self r S.signalling.ends)

theorem Good.signalling_writerTurn (h : Good cfg S) :
    (S.writerTurn r).signalling = S.signalling ∨
      Signalling.Step r S.signalling (S.writerTurn r).signalling := by
  have hclosing : (S.ends r).writer ≠ .running →
      (S.signalling.ends r).isClosing = true := (h.wf r).writerClosing
  have hnil : ∀ s, (S.putWrite r s []).signalling =
      S.signalling.put r s.control := fun s => by
    rw [putWrite_nil, signalling_put]
  rw [writerTurn_eq]
  obtain heq | ⟨f, rest, hq, -, heq⟩ | ⟨f, rest, hq, -, heq⟩ | ⟨hw, hq, heq⟩ |
    ⟨hw, f, rest, hq, heq⟩ | ⟨hw, heq⟩ := (S.ends r).writerNext_cases
  · left
    rw [heq]
    exact (congrArg signalling (putWrite_nil ..)).trans
      (signalling_put_same rfl)
  · right
    rw [heq, signalling_putWrite]
    have hqueue : (S.signalling.ends r).out.queue =
        signals [f] ++ signals rest := by
      rw [← signals_append]
      exact congrArg signals hq
    exact .write hqueue
  · right
    rw [heq]
    have hrest : signals rest <:+ (S.signalling.ends r).out.queue :=
      Session.signals_suffix (hq ▸ List.suffix_cons f rest)
    exact (hnil _).symm ▸ Session.control_refused .. ▸ .refuse hrest
  · right
    rw [heq]
    exact (hnil _).symm ▸ .flush (hclosing (by rw [hw]; decide))
      (congrArg signals hq)
  · right
    rw [heq]
    have hrest : signals rest <:+ (S.signalling.ends r).out.queue :=
      Session.signals_suffix (hq ▸ List.suffix_cons f rest)
    exact (hnil _).symm ▸ .abort (hclosing (by rw [hw]; decide)) hrest
  · right
    rw [heq]
    exact (hnil _).symm ▸ .exit (hclosing (by rw [hw]; decide)) hw

theorem Good.signalling_readerTurn (h : Good cfg S) :
    (S.readerTurn r).signalling = S.signalling ∨
      Signalling.Step r S.signalling (S.readerTurn r).signalling := by
  by_cases hidle : (S.ends r).readerDone = true ∨ S.wire r.peer = []
  · exact .inl (congrArg signalling (readerTurn_idle hidle))
  · rw [not_or, Bool.not_eq_true] at hidle
    obtain ⟨hrun, hne⟩ := hidle
    obtain ⟨f, rest, hwire⟩ := List.exists_cons_of_ne_nil hne
    have hf : f ∈ S.wire r.peer := hwire ▸ List.mem_cons_self
    have hrest : signals rest <:+ S.signalling.wire r.peer :=
      Session.signals_suffix (hwire ▸ List.suffix_cons f rest)
    have hended : ∀ code, Signalling.Step r S.signalling
        (S.signalling.left r ((S.ends r).control.readerEnd code)
          (signals rest)) :=
      fun code => .readerEnd code hrest
    rw [readerTurn_eq hrun hwire, signalling_putRead, h.readerNext hf]
    split
    · refine .inr ?_
      rw [show ((S.ends r).readerFail _).control = _ from
        Session.control_readerEnd ..]
      exact hended _
    · obtain hc | ⟨-, code, hc⟩ := Session.control_settle (s := S.ends r)
        f.normalize
      · rw [hc]
        by_cases hsig : f.isSignal = true
        · right
          refine .read (?_ : signals (S.wire r.peer) = f :: signals rest)
          rw [hwire, signals_cons, if_pos hsig]
        · left
          rw [Control.receive_stream _
            (f.isSignal_normalize.trans (Bool.not_eq_true _ ▸ hsig))]
          have hsame : signals rest = signals (S.wire r.peer) := by
            rw [hwire, signals_cons, if_neg hsig]
          rw [hsame]
          exact congrArg₂ Signalling.mk
            (Function.update_eq_self r S.signalling.ends)
            (Function.update_eq_self r.peer S.signalling.wire)
      · rw [hc]
        exact .inr (hended code)

/-- **What an action of the system is to the session-scoped frames.** -/
theorem Good.signalling_step (h : Good cfg S) (a : Action) :
    (S.step a).signalling = S.signalling ∨
      Signalling.Step a.role S.signalling (S.step a).signalling := by
  have hact : a.act ≠ .writerNext →
      Signalling.Step a.role S.signalling
        (S.put a.role ((S.ends a.role).perform a.act)).signalling := by
    intro hne
    rw [signalling_put, Session.control_perform hne]
    exact .perform a.act
  obtain ⟨r, act⟩ := a
  cases act with
  | writerNext => exact h.signalling_writerTurn
  | readerNext => exact h.signalling_readerTurn
  | readerEof =>
      show (S.eofTurn r).signalling = _ ∨
        Signalling.Step r _ (S.eofTurn r).signalling
      unfold eofTurn
      split
      · right
        rw [signalling_put, show (S.ends r).readerEof.control = _ from
          Session.control_readerEnd .., ← Signalling.left_wire]
        exact .readerEnd _ List.suffix_rfl
      · exact .inl rfl
  | _ => exact .inr (hact nofun)

end System

/-! ## A session says `GoAway` once -/

theorem Frame.isGoAway_normalize (f : Frame) :
    f.normalize.isGoAway = f.isGoAway := by
  cases f <;> rfl

/-- How many of some frames say `GoAway`. -/
def goAways (fs : List Frame) : Nat := fs.countP Frame.isGoAway

theorem goAways_append (fs gs : List Frame) :
    goAways (fs ++ gs) = goAways fs + goAways gs :=
  List.countP_append ..

theorem goAways_suffix {fs gs : List Frame} (h : fs <:+ gs) :
    goAways fs ≤ goAways gs :=
  h.sublist.countP_le

theorem goAways_cons (f : Frame) (fs : List Frame) :
    goAways (f :: fs) = f.isGoAway.toNat + goAways fs := by
  cases hf : f.isGoAway <;> simp [goAways, hf, Nat.add_comm]

namespace Control

variable {c : Control}

/-- The `GoAway`s in the outbound queue. -/
def said (c : Control) : Nat := goAways c.out.queue

/-- A step that queues a `GoAway` exactly when it begins the shutdown. -/
structure Says (c c' : Control) : Prop where
  said : c'.said + c.isClosing.toNat = c.said + c'.isClosing.toNat
  closing : c.isClosing = true → c'.isClosing = true
  writer : c'.writer = .flushed ∨ c'.writer = .exited → c'.writer = c.writer
  failed : c'.encodeFailed = c.encodeFailed
  done : c.readerDone = true → c'.readerDone = true

/-- A step that has nothing to do with it. -/
theorem Says.kept {c' : Control} (hsaid : c'.said = c.said)
    (hclosing : c'.isClosing = c.isClosing) (hwriter : c'.writer = c.writer)
    (hfailed : c'.encodeFailed = c.encodeFailed)
    (hdone : c'.readerDone = c.readerDone) : Says c c' :=
  ⟨by rw [hsaid, hclosing], hclosing.trans, fun _ => hwriter, hfailed,
    hdone.trans⟩

theorem Says.refl (c : Control) : Says c c := .kept rfl rfl rfl rfl rfl

theorem says_initiateShutdown (h : c.out.closed = true → c.isClosing = true)
    (code : ErrorCode) : Says c (c.initiateShutdown code) := by
  unfold initiateShutdown
  split
  · exact .refl c
  · rename_i hcl
    rw [Bool.not_eq_true] at hcl
    have hopen : c.out.closed = false := by
      rw [Bool.eq_false_iff]
      intro hclosed
      rw [h hclosed] at hcl
      cases hcl
    have hqueue : goAways (c.out.send (.goAway code)).queue = c.said + 1 := by
      simp [Chan.send, hopen, said, goAways, Frame.isGoAway]
    refine ⟨?_, fun _ => rfl, fun _ => rfl, rfl, fun h => h⟩
    simp only [said, hqueue, hcl, Bool.toNat_true, Bool.toNat_false]

theorem said_send {f : Frame} (hf : f.isGoAway = false) :
    goAways (c.out.send f).queue = c.said := by
  unfold Chan.send
  split
  · rfl
  · simp [hf, said, goAways]

theorem says_perform (h : c.Orderly) (a : Act) : Says c (c.perform a) := by
  cases a with
  | close => exact says_initiateShutdown h.outClosing .normal
  | writerStop =>
      simp only [perform]
      split
      · refine ⟨rfl, fun h => h, fun hphase => ?_, rfl, fun h => h⟩
        rcases hphase with hphase | hphase <;> cases hphase
      · exact .refl c
  | keepaliveTick =>
      simp only [perform, keepaliveTick]
      repeat' split
      · exact .kept rfl rfl rfl rfl rfl
      · exact .kept (said_send rfl) rfl rfl rfl rfl
      · exact .refl c
  | keepaliveTimeout =>
      have hshut := says_initiateShutdown h.outClosing .timeout
      simp only [perform, keepaliveTimeout]
      split
      · exact ⟨hshut.said, hshut.closing, hshut.writer, hshut.failed, hshut.done⟩
      · exact .refl c
  | readerStop =>
      simp only [perform]
      split
      · exact ⟨rfl, fun h => h, fun _ => rfl, rfl, fun _ => rfl⟩
      · exact .refl c
  | _ =>
      simp only [perform, keepalivePong, keepaliveStop]
      repeat' split
      all_goals exact .kept rfl rfl rfl rfl rfl

theorem says_receive (h : c.Orderly) (f : Frame) : Says c (c.receive f) := by
  cases f with
  | ping flags nonce =>
      simp only [receive]
      split
      · exact .kept rfl rfl rfl rfl rfl
      · exact .kept (said_send rfl) rfl rfl rfl rfl
  | goAway code =>
      have hshut := says_initiateShutdown (c := { c with peerGone := true })
        h.outClosing code
      exact ⟨hshut.said, hshut.closing, hshut.writer, hshut.failed, hshut.done⟩
  | _ => exact .refl c

theorem says_readerEnd (h : c.Orderly) (code : ErrorCode) :
    Says c (c.readerEnd code) := by
  have hshut := says_initiateShutdown h.outClosing code
  exact ⟨hshut.said, hshut.closing, hshut.writer, hshut.failed, fun _ => rfl⟩

theorem peerGone_initiateShutdown (code : ErrorCode) :
    (c.initiateShutdown code).peerGone = c.peerGone := by
  unfold initiateShutdown
  split <;> rfl

theorem peerGone_perform (a : Act) : (c.perform a).peerGone = c.peerGone := by
  cases a with
  | close => exact peerGone_initiateShutdown .normal
  | keepaliveTimeout =>
      simp only [perform, keepaliveTimeout]
      split
      · exact peerGone_initiateShutdown .timeout
      · rfl
  | _ =>
      simp only [perform, keepaliveTick, keepalivePong, keepaliveStop]
      repeat' split
      all_goals rfl

theorem peerGone_receive (f : Frame) :
    (c.receive f).peerGone = (c.peerGone || f.isGoAway) := by
  cases f with
  | ping flags nonce =>
      simp only [receive, Frame.isGoAway, Bool.or_false]
      split <;> rfl
  | goAway code =>
      exact (peerGone_initiateShutdown code).trans (Bool.or_true _).symm
  | _ => exact (Bool.or_false _).symm

end Control

namespace Signalling

variable {T T' : Signalling} {q : Role}

/-- What there is of the `GoAway` that `r` says, and whether its peer has heard
it. -/
structure Announced (T : Signalling) (r : Role) : Prop where
  once : goAways (T.underWay r) + (T.ends r.peer).peerGone.toNat ≤
    (T.ends r).isClosing.toNat
  heard : (T.ends r).isClosing = true → (T.ends r).encodeFailed = false →
    (T.ends r.peer).readerDone = false →
    1 ≤ goAways (T.underWay r) + (T.ends r.peer).peerGone.toNat
  drained : (T.ends r).writer = .flushed ∨ (T.ends r).writer = .exited →
    (T.ends r).encodeFailed = false → (T.ends r).said = 0

theorem goAways_underWay (T : Signalling) (r : Role) :
    goAways (T.underWay r) = goAways (T.wire r) + (T.ends r).said :=
  goAways_append ..

/-- The side that says it takes a step. -/
theorem Announced.says (h : T.Announced q) (hq : (T.ends q).Orderly)
    {c : Control} (hc : Control.Says (T.ends q) c)
    (hself : T'.ends q = c) (hpeer : T'.ends q.peer = T.ends q.peer)
    (hwire : T'.wire q = T.wire q) : T'.Announced q := by
  have hsaid := hc.said
  have honce := h.once
  have hheard := h.heard
  rw [goAways_underWay] at honce hheard
  refine ⟨?_, ?_, ?_⟩
  · rw [goAways_underWay, hself, hpeer, hwire]
    omega
  · rw [goAways_underWay, hself, hpeer, hwire]
    intro hcl hfailed hdone
    rw [hcl, Bool.toNat_true] at hsaid
    cases hbefore : (T.ends q).isClosing with
    | true =>
        have hone := hheard hbefore (hc.failed ▸ hfailed) hdone
        rw [hbefore, Bool.toNat_true] at hsaid
        omega
    | false =>
        rw [hbefore, Bool.toNat_false] at hsaid
        omega
  · rw [hself]
    intro hphase hfailed
    have hkept := hc.writer hphase
    have hzero := h.drained (hkept ▸ hphase) (hc.failed ▸ hfailed)
    have hcl := hq.phaseClosing fun hrun => by
      rw [hkept, hrun] at hphase
      rcases hphase with hphase | hphase <;> cases hphase
    rw [hcl, hc.closing hcl] at hsaid
    omega

/-- Frames of a writer that fails are lost. -/
theorem Announced.fails (h : T.Announced q) {c : Control}
    (honce : c.said + (T.ends q).isClosing.toNat ≤
      (T.ends q).said + c.isClosing.toNat)
    (hfailed : c.encodeFailed = true) : (T.put q c).Announced q := by
  have hbefore := h.once
  rw [goAways_underWay] at hbefore
  refine ⟨?_, ?_, ?_⟩
  · rw [goAways_underWay, put_ends_self, put_ends_peer, put_wire]
    omega
  · rw [put_ends_self, hfailed]
    intro _ hnot
    cases hnot
  · rw [put_ends_self, hfailed]
    intro _ hnot
    cases hnot

/-- The writer moves on without losing one. -/
theorem Announced.moves (h : T.Announced q) {c : Control}
    (hsaid : c.said = (T.ends q).said)
    (hclosing : c.isClosing = (T.ends q).isClosing)
    (hfailed : c.encodeFailed = (T.ends q).encodeFailed)
    (hzero : c.encodeFailed = false → c.said = 0) :
    (T.put q c).Announced q := by
  have honce := h.once
  have hheard := h.heard
  rw [goAways_underWay] at honce hheard
  refine ⟨?_, ?_, ?_⟩
  · rw [goAways_underWay, put_ends_self, put_ends_peer, put_wire, hsaid,
      hclosing]
    exact honce
  · rw [goAways_underWay, put_ends_self, put_ends_peer, put_wire, hsaid,
      hclosing, hfailed]
    exact hheard
  · rw [put_ends_self]
    exact fun _ => hzero

/-- The side that says it takes a step, whichever it is. -/
theorem Step.announced_self (hstep : Step q T T') (hq : (T.ends q).Orderly)
    (h : T.Announced q) : T'.Announced q := by
  have hpeer := hstep.ends_peer
  cases hstep with
  | perform a =>
      exact h.says hq (Control.says_perform hq a) (put_ends_self _) hpeer rfl
  | @read f rest hwire =>
      exact h.says hq (Control.says_receive hq f.normalize) (left_ends_self ..)
        hpeer (left_wire_self ..)
  | readerEnd code hrest =>
      exact h.says hq (Control.says_readerEnd hq code) (left_ends_self ..) hpeer
        (left_wire_self ..)
  | @write fs rest hqueue =>
      -- what is under way is the same, and less of it is in the queue
      have hsame : (T.wrote q fs rest).underWay q = T.underWay q := by
        simp [wrote, underWay, hqueue]
      have hself : (T.wrote q fs rest).ends q =
          { T.ends q with out := ⟨rest, (T.ends q).out.closed⟩ } := by
        simp [wrote]
      refine ⟨?_, ?_, ?_⟩
      · rw [hsame, hpeer, hself]
        exact h.once
      · rw [hsame, hpeer, hself]
        exact h.heard
      · rw [hself]
        intro hphase hfailed
        have hzero := h.drained hphase hfailed
        rw [Control.said, hqueue, goAways_append] at hzero
        exact (Nat.add_eq_zero_iff.mp hzero).2
  | @refuse rest hrest =>
      have hle := goAways_suffix hrest
      have hshut := (Control.says_initiateShutdown
        (c := { T.ends q with out := ⟨rest, (T.ends q).out.closed⟩ })
        hq.outClosing .internalError).said
      refine h.fails ?_ rfl
      exact hshut.trans_le (Nat.add_le_add_right hle _)
  | flush hclosing hqueue =>
      refine h.moves rfl rfl rfl fun _ => ?_
      exact congrArg goAways hqueue
  | abort hclosing hrest =>
      exact h.fails (Nat.add_le_add_right (goAways_suffix hrest) _) rfl
  | exit hclosing hphase =>
      -- a drain that went through has left no `GoAway` in the queue
      cases hfailed : (T.ends q).encodeFailed with
      | false =>
          have hzero := h.drained (.inl hphase) hfailed
          exact h.moves hzero.symm rfl rfl fun _ => rfl
      | true =>
          exact h.fails (Nat.add_le_add_right (Nat.zero_le _) _) hfailed

/-- The side that hears it takes a step. -/
theorem Announced.hears (h : T.Announced q.peer)
    (hpeer : T'.ends q.peer = T.ends q.peer)
    (honce : goAways (T'.wire q.peer) + (T'.ends q).peerGone.toNat ≤
      goAways (T.wire q.peer) + (T.ends q).peerGone.toNat)
    (hheard : (T'.ends q).readerDone = false →
      (T.ends q).readerDone = false ∧
        goAways (T.wire q.peer) + (T.ends q).peerGone.toNat ≤
          goAways (T'.wire q.peer) + (T'.ends q).peerGone.toNat) :
    T'.Announced q.peer := by
  have hbefore := h.once
  have hbeforeHeard := h.heard
  rw [goAways_underWay, Role.peer_peer] at hbefore hbeforeHeard
  refine ⟨?_, ?_, hpeer ▸ h.drained⟩
  · rw [goAways_underWay, Role.peer_peer, hpeer]
    omega
  · rw [goAways_underWay, Role.peer_peer, hpeer]
    intro hclosing hfailed hdone
    obtain ⟨hrunning, hle⟩ := hheard hdone
    have hone := hbeforeHeard hclosing hfailed hrunning
    omega

/-- It does something that is not reading. -/
theorem Announced.apart (h : T.Announced q.peer)
    (hpeer : T'.ends q.peer = T.ends q.peer)
    (hwire : T'.wire q.peer = T.wire q.peer)
    (hgone : (T'.ends q).peerGone = (T.ends q).peerGone)
    (hdone : (T.ends q).readerDone = true → (T'.ends q).readerDone = true) :
    T'.Announced q.peer := by
  refine h.hears hpeer (by rw [hwire, hgone]) fun hrunning => ?_
  refine ⟨?_, by rw [hwire, hgone]⟩
  rw [Bool.eq_false_iff] at hrunning ⊢
  exact mt hdone hrunning

/-- The side that hears it takes a step, whichever it is. -/
theorem Step.announced_peer (hstep : Step q T T') (hq : (T.ends q).Orderly)
    (h : T.Announced q.peer) : T'.Announced q.peer := by
  have hpeer := hstep.ends_peer
  cases hstep with
  | perform a =>
      refine h.apart hpeer rfl ?_ ?_
      · rw [put_ends_self]
        exact Control.peerGone_perform a
      · rw [put_ends_self]
        exact (Control.says_perform hq a).done
  | write hqueue =>
      refine h.apart hpeer ?_ ?_ ?_ <;> simp [wrote]
  | @refuse rest hrest =>
      have hshut := Control.says_initiateShutdown
        (c := { T.ends q with out := ⟨rest, (T.ends q).out.closed⟩ })
        hq.outClosing .internalError
      refine h.apart hpeer rfl ?_ ?_
      · rw [put_ends_self]
        exact Control.peerGone_initiateShutdown _
      · rw [put_ends_self]
        exact hshut.done
  | flush hclosing hqueue => refine h.apart hpeer rfl ?_ ?_ <;> simp
  | abort hclosing hrest => refine h.apart hpeer rfl ?_ ?_ <;> simp
  | exit hclosing hphase => refine h.apart hpeer rfl ?_ ?_ <;> simp
  | @read f rest hwire =>
      -- a `GoAway` that is read was the only one, so the flag was down
      have hgone : goAways rest +
          ((T.ends q).receive f.normalize).peerGone.toNat =
            goAways (T.wire q.peer) + (T.ends q).peerGone.toNat := by
        have hone := h.once
        rw [goAways_underWay, Role.peer_peer, hwire, goAways_cons] at hone
        have hle := (T.ends q.peer).isClosing.toNat_le
        rw [Control.peerGone_receive, f.isGoAway_normalize, hwire, goAways_cons]
        cases hf : f.isGoAway with
        | false => simp
        | true =>
            rw [hf, Bool.toNat_true] at hone
            rw [Bool.or_true, Bool.toNat_true]
            omega
      refine h.hears hpeer ?_ ?_
      · rw [left_ends_self, left_wire_peer, hgone]
      · rw [left_ends_self, left_wire_peer, hgone]
        refine fun hrunning => ⟨?_, le_rfl⟩
        rw [Bool.eq_false_iff] at hrunning ⊢
        exact mt (Control.says_receive hq f.normalize).done hrunning
  | @readerEnd code rest hrest =>
      refine h.hears hpeer ?_ ?_
      · rw [left_ends_self, left_wire_peer]
        refine Nat.add_le_add (goAways_suffix hrest) (le_of_eq ?_)
        exact congrArg Bool.toNat (Control.peerGone_initiateShutdown code)
      · rw [left_ends_self]
        intro hrunning
        cases hrunning

/-- **Each step keeps what is known of both farewells.** -/
theorem Step.announced (hstep : Step q T T') (hq : (T.ends q).Orderly)
    (h : ∀ r, T.Announced r) (r : Role) : T'.Announced r := by
  rcases Role.eq_or_eq_peer q r with rfl | rfl
  · exact hstep.announced_self hq (h r)
  · exact hstep.announced_peer hq (h q.peer)

end Signalling

namespace System

variable {cfg : Role → Config} {S : System} {r : Role}

theorem Good.orderly (h : Good cfg S) (r : Role) :
    (S.signalling.ends r).Orderly where
  outClosing := ((h.pipes 0).sound.ends r).outClosing
  watchClosing := (h.wf r).shutdownClosing
  doneClosing := ((h.pipes 0).sound.ends r).doneClosing
  phaseClosing := (h.wf r).writerClosing

/-- Good, and both farewells in order. -/
theorem announced_step {a : Action} (hgood : Good cfg S)
    (h : ∀ r, S.signalling.Announced r) (r : Role) :
    (S.step a).signalling.Announced r := by
  rcases hgood.signalling_step a with hsame | hstep
  · exact hsame ▸ h r
  · exact hstep.announced (hgood.orderly a.role) h r

theorem Reachable.announced (h : Reachable cfg S) (r : Role) :
    S.signalling.Announced r := by
  obtain ⟨as, rfl⟩ := h
  have hrun := run_invariant_all System.step
    (I := fun S => Good cfg S ∧ ∀ r, S.signalling.Announced r)
    (fun S a hS => ⟨(hS.1.turn a).good hS.1, announced_step hS.1 hS.2⟩) as _
    ⟨good_init cfg, fun r =>
      ⟨le_rfl, fun hcl => (by cases hcl), fun _ _ => rfl⟩⟩
  exact hrun.2 r

theorem goAways_signals (fs : List Frame) :
    goAways (signals fs) = goAways fs := by
  simp only [goAways, signals, List.countP_filter]
  refine List.countP_congr fun f _ => ?_
  cases f <;> simp [Frame.isGoAway, Frame.isSignal, Frame.streamId?]

/-- **A session says `GoAway` once, and it is not lost.**  In every state of
every run: what a session has sent and its peer has not read holds at most one
`GoAway`, none once the peer has heard it, and none while the session is not
closing; a session has heard it only from a peer that is closing, and is then
closing itself; and while the peer still reads, the `GoAway` of a closing
session whose encoder has not failed is under way or heard. -/
theorem goAway_once (hS : Reachable cfg S) (r : Role) :
    goAways (S.underWay r) + (S.ends r.peer).peerGone.toNat ≤
        (S.ends r).isClosing.toNat ∧
      ((S.ends r.peer).peerGone = true →
        (S.ends r).isClosing = true ∧ (S.ends r.peer).isClosing = true) ∧
      ((S.ends r).isClosing = true → (S.ends r).encodeFailed = false →
        (S.ends r.peer).readerDone = false →
        goAways (S.underWay r) + (S.ends r.peer).peerGone.toNat = 1) := by
  have h := hS.announced r
  have hunder : goAways (S.signalling.underWay r) = goAways (S.underWay r) := by
    rw [← goAways_signals (S.underWay r), underWay, signals_append]
    rfl
  have honce := h.once
  rw [hunder] at honce
  refine ⟨honce, fun hgone => ⟨?_, (hS.good.wf r.peer).goneClosing hgone⟩, ?_⟩
  · by_contra hopen
    rw [Bool.not_eq_true] at hopen
    change _ + (S.ends r.peer).peerGone.toNat ≤ (S.ends r).isClosing.toNat at honce
    rw [hgone, hopen, Bool.toNat_true, Bool.toNat_false] at honce
    omega
  · intro hclosing hfailed hrunning
    have hheard := h.heard hclosing hfailed hrunning
    rw [hunder] at hheard
    have hle := (S.ends r).isClosing.toNat_le
    exact le_antisymm (le_trans honce hle) hheard

/-- The client closes; its `GoAway` is written and read. -/
def farewellRun : List Action :=
  [⟨.client, .openStart⟩, ⟨.client, .close⟩, ⟨.client, .writerNext⟩,
    ⟨.client, .writerNext⟩, ⟨.server, .readerNext⟩, ⟨.server, .readerNext⟩]

theorem goAway_once_farewellRun :
    ((after (fun _ => Config.default) farewellRun).ends .server).peerGone =
        true ∧
      ((after (fun _ => Config.default) farewellRun).ends .client).isClosing =
        true :=
  have hgone : ((after (fun _ => Config.default) farewellRun).ends
      .server).peerGone = true := by decide +kernel
  ⟨hgone, ((goAway_once ⟨farewellRun, rfl⟩ .client).2.1 hgone).1⟩

end System

end NetMux
