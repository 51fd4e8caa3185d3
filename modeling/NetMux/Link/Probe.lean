import NetMux.Endpoint.Tending
import NetMux.Link.Signals

/-!
# One keepalive probe at a time

The keepalive task sends a `Ping`, and `await_pong` takes replies off a queue
until one carries the nonce of that ping; any other reply it throws away.
Between two endpoints of this code nothing is ever thrown away.  While neither
session is closing, the probe a task waits for is in exactly one place: on its
way as a request, on its way back as a reply, or in the queue the reader hands
replies over by.  A task that waits for none has none outstanding.

`Paired` says this of one side, `Step.paired` that every step keeps it as long
as the side that acts is not closing, and `probe_outstanding` is the result for
every run.
-/

namespace NetMux

open Lib Lib.Run

/-- The requests among some frames. -/
def asked (fs : List Frame) : List UInt32 := fs.filterMap Frame.asks?

/-- The replies among some frames. -/
def echoed (fs : List Frame) : List UInt32 := fs.filterMap Frame.echoes?

theorem asked_append (fs gs : List Frame) :
    asked (fs ++ gs) = asked fs ++ asked gs :=
  List.filterMap_append

theorem echoed_append (fs gs : List Frame) :
    echoed (fs ++ gs) = echoed fs ++ echoed gs :=
  List.filterMap_append

theorem asked_cons (f : Frame) (fs : List Frame) :
    asked (f :: fs) = f.asks?.toList ++ asked fs := by
  cases h : f.asks? <;> simp [asked, h]

theorem echoed_cons (f : Frame) (fs : List Frame) :
    echoed (f :: fs) = f.echoes?.toList ++ echoed fs := by
  cases h : f.echoes? <;> simp [echoed, h]

/-- The probe the task waits for. -/
def Keepalive.expected (k : Keepalive) : List UInt32 :=
  if k.awaiting then [k.nonce] else []

/-- A probe that exists is the one waited for, and there is no other. -/
theorem Keepalive.expected_eq {k : Keepalive} {nonce : UInt32}
    {before after : List UInt32} (h : before ++ nonce :: after = k.expected) :
    k.awaiting = true ∧ nonce = k.nonce ∧ before = [] ∧ after = [] := by
  unfold expected at h
  cases hwait : k.awaiting with
  | false => simp [hwait] at h
  | true =>
      rw [if_pos hwait, List.append_eq_singleton_iff] at h
      simp_all

namespace Signalling

variable {T T' : Signalling} {q r : Role}

/-- The probe of `r`, wherever it is: asked, echoed, or handed over. -/
def probes (T : Signalling) (r : Role) : List UInt32 :=
  asked (T.underWay r) ++ echoed (T.underWay r.peer) ++
    (T.ends r).keepalive.pongs.queue

/-- The keepalive task of `r` and the probe it waits for. -/
structure Paired (T : Signalling) (r : Role) : Prop where
  outstanding : T.probes r = (T.ends r).keepalive.expected
  mailbox : (T.ends r).keepalive.running = true ∨
    (T.ends r).keepalive.awaiting = true →
    (T.ends r).keepalive.pongs.closed = false

/-- A step that moves no probe of `r`. -/
theorem Paired.of_same (h : T.Paired r)
    (hasked : asked (T'.underWay r) = asked (T.underWay r))
    (hechoed : echoed (T'.underWay r.peer) = echoed (T.underWay r.peer))
    (hkeep : (T'.ends r).keepalive = (T.ends r).keepalive) : T'.Paired r := by
  refine ⟨?_, hkeep ▸ h.mailbox⟩
  rw [probes, hasked, hechoed, hkeep]
  exact h.outstanding

theorem underWay_put_peer (c : Control) :
    (T.put q c).underWay q.peer = T.underWay q.peer := by
  simp [underWay, put]

theorem underWay_put_self (c : Control) :
    (T.put q c).underWay q = T.wire q ++ c.out.queue := by
  simp [underWay]

/-- The ticker sends a probe when none is out. -/
theorem Paired.tick (h : T.Paired q)
    (hidle : (T.ends q).keepalive.awaiting = false)
    (hrun : (T.ends q).keepalive.running = true) {c : Control}
    (hqueue : c.out.queue =
      (T.ends q).out.queue ++ [.mkPing c.keepalive.nonce])
    (hwait : c.keepalive.awaiting = true)
    (hpongs : c.keepalive.pongs = (T.ends q).keepalive.pongs) :
    (T.put q c).Paired q := by
  have hnone := h.outstanding
  rw [Keepalive.expected, hidle, if_neg Bool.false_ne_true, probes,
    List.append_eq_nil_iff, List.append_eq_nil_iff] at hnone
  obtain ⟨⟨hasked, hechoed⟩, hmail⟩ := hnone
  refine ⟨?_, ?_⟩
  · rw [probes, underWay_put_self, underWay_put_peer, put_ends_self, hqueue,
      ← List.append_assoc, asked_append, hechoed, hpongs, hmail,
      show asked (T.wire q ++ (T.ends q).out.queue) = [] from hasked,
      Keepalive.expected, if_pos hwait]
    rfl
  · rw [put_ends_self, hpongs]
    exact fun _ => h.mailbox (.inl hrun)

/-- **The reply the task takes is the one it waits for.** -/
theorem Paired.take (h : T.Paired q) {nonce : UInt32} {rest : List UInt32}
    (hqueue : (T.ends q).keepalive.pongs.queue = nonce :: rest) :
    nonce = (T.ends q).keepalive.nonce ∧ rest = [] ∧
      asked (T.underWay q) = [] ∧ echoed (T.underWay q.peer) = [] := by
  have hone := h.outstanding
  rw [probes, hqueue] at hone
  obtain ⟨-, hnonce, hbefore, hafter⟩ := Keepalive.expected_eq hone
  rw [List.append_eq_nil_iff] at hbefore
  exact ⟨hnonce, hafter, hbefore⟩

/-- A step of the users, the ticker or the task itself. -/
theorem paired_perform (hq : (T.ends q).Orderly) (a : Act)
    (hopen : ((T.ends q).perform a).isClosing = false)
    (h : ∀ r, T.Paired r) (r : Role) :
    (T.put q ((T.ends q).perform a)).Paired r := by
  obtain hsame | ⟨hidle, hc, hrun⟩ | ⟨hwait, nonce, rest, hqueue, hc⟩ :=
    Control.perform_open hq a hopen
  · have hput : T.put q (T.ends q) = T :=
      congrArg (Signalling.mk · T.wire) (Function.update_eq_self q T.ends)
    rw [hsame, hput]
    exact h r
  · rw [hc]
    rcases Role.eq_or_eq_peer q r with rfl | rfl
    · exact (h r).tick hidle hrun rfl rfl rfl
    · refine (h q.peer).of_same ?_ ?_ ?_
      · rw [underWay_put_peer]
      · rw [Role.peer_peer, underWay_put_self, ← List.append_assoc,
          echoed_append]
        exact List.append_nil _
      · rw [put_ends_peer]
  · rw [hc]
    rcases Role.eq_or_eq_peer q r with rfl | rfl
    · obtain ⟨rfl, rfl, hasked, hechoed⟩ := (h r).take hqueue
      refine ⟨?_, ?_⟩
      · rw [probes, underWay_put_self, underWay_put_peer, put_ends_self,
          hechoed, show asked (T.wire r ++ (T.ends r).out.queue) = [] from
            hasked]
        simp [Keepalive.expected]
      · rw [put_ends_self]
        exact fun _ => (h r).mailbox (.inr hwait)
    · refine (h q.peer).of_same ?_ ?_ ?_
      · rw [underWay_put_peer]
      · rw [Role.peer_peer, underWay_put_self]
        rfl
      · rw [put_ends_peer]

/-- What a frame that is read leaves under way. -/
theorem underWay_read {f : Frame} {rest : List Frame}
    (hwire : T.wire q.peer = f :: rest) (c : Control) :
    T.underWay q.peer = f :: (T.left q c rest).underWay q.peer := by
  simp [underWay, left, hwire]

theorem underWay_left_self (c : Control) (rest : List Frame) :
    (T.left q c rest).underWay q = T.wire q ++ c.out.queue := by
  simp [underWay, left]

/-- A frame that is neither request nor reply. -/
theorem paired_read_other {f : Frame} {rest : List Frame}
    (hwire : T.wire q.peer = f :: rest) {c : Control}
    (hout : c.out = (T.ends q).out)
    (hkeep : c.keepalive = (T.ends q).keepalive)
    (hasks : f.asks? = none) (hechoes : f.echoes? = none)
    (h : ∀ r, T.Paired r) (r : Role) : (T.left q c rest).Paired r := by
  have hread := underWay_read hwire c
  have hasked : asked ((T.left q c rest).underWay q.peer) =
      asked (T.underWay q.peer) := by
    rw [hread, asked_cons, hasks]
    rfl
  have hechoed : echoed ((T.left q c rest).underWay q.peer) =
      echoed (T.underWay q.peer) := by
    rw [hread, echoed_cons, hechoes]
    rfl
  have hself : (T.left q c rest).underWay q = T.underWay q := by
    rw [underWay_left_self, hout]
    rfl
  rcases Role.eq_or_eq_peer q r with rfl | rfl
  · refine (h r).of_same (by rw [hself]) hechoed ?_
    rw [left_ends_self, hkeep]
  · refine (h q.peer).of_same hasked ?_ ?_
    · rw [Role.peer_peer, hself]
    · simp [left]

/-- A request turns into its reply. -/
theorem paired_read_request {flags : Flags} {nonce : UInt32}
    (hack : flags.contains Flags.ack = false) {rest : List Frame}
    (hwire : T.wire q.peer = .ping flags nonce :: rest)
    (hout : (T.ends q).out.closed = false) (h : ∀ r, T.Paired r)
    (hT : T' = T.left q ((T.ends q).enqueue (.pong nonce)) rest) (r : Role) :
    T'.Paired r := by
  have hread : T.underWay q.peer = .ping flags nonce :: T'.underWay q.peer :=
    hT ▸ underWay_read hwire _
  have hself : T'.underWay q = T.underWay q ++ [.pong nonce] := by
    rw [hT, underWay_left_self, Control.enqueue, Chan.send]
    simp [hout, underWay]
  rcases Role.eq_or_eq_peer q r with rfl | rfl
  · refine (h r).of_same ?_ ?_ ?_
    · rw [hself, asked_append]
      exact List.append_nil _
    · rw [hread, echoed_cons, Frame.echoes?, hack]
      rfl
    · rw [hT, left_ends_self]
      rfl
  · have hone := (h q.peer).outstanding
    have hpeer : T'.ends q.peer = T.ends q.peer := by
      simp [hT, left]
    refine ⟨?_, hpeer ▸ (h q.peer).mailbox⟩
    have hfront : [] ++ nonce :: (asked (T'.underWay q.peer) ++
        (echoed (T.underWay q) ++ (T.ends q.peer).keepalive.pongs.queue)) =
          (T.ends q.peer).keepalive.expected := by
      rw [← hone, probes, Role.peer_peer, hread, asked_cons, Frame.asks?, hack]
      simp
    obtain ⟨-, -, -, hafter⟩ := Keepalive.expected_eq hfront
    rw [List.append_eq_nil_iff, List.append_eq_nil_iff] at hafter
    obtain ⟨hasked, hechoed, hmail⟩ := hafter
    rw [probes, Role.peer_peer, hself, hpeer, echoed_append, hasked, hechoed,
      hmail, ← hfront, hasked, hechoed, hmail]
    rfl

/-- A reply reaches the task's queue. -/
theorem paired_read_reply {flags : Flags} {nonce : UInt32}
    (hack : flags.contains Flags.ack = true) {rest : List Frame}
    (hwire : T.wire q.peer = .ping flags nonce :: rest)
    (h : ∀ r, T.Paired r) {c : Control} (hout : c.out = (T.ends q).out)
    (hkeep : c.keepalive = { (T.ends q).keepalive with
      pongs := (T.ends q).keepalive.pongs.send nonce })
    (hT : T' = T.left q c rest) (r : Role) : T'.Paired r := by
  have hread : T.underWay q.peer = .ping flags nonce :: T'.underWay q.peer :=
    hT ▸ underWay_read hwire c
  have hself : T'.underWay q = T.underWay q := by
    rw [hT, underWay_left_self, hout]
    rfl
  rcases Role.eq_or_eq_peer q r with rfl | rfl
  · have hone := (h r).outstanding
    have hends : (T'.ends r).keepalive = { (T.ends r).keepalive with
        pongs := (T.ends r).keepalive.pongs.send nonce } := by
      rw [hT, left_ends_self, hkeep]
    have hmiddle : asked (T.underWay r) ++ nonce :: (echoed (T'.underWay r.peer)
        ++ (T.ends r).keepalive.pongs.queue) =
          (T.ends r).keepalive.expected := by
      rw [← hone, probes, hread, echoed_cons, Frame.echoes?, hack]
      simp
    obtain ⟨hwait, -, hasked, hafter⟩ := Keepalive.expected_eq hmiddle
    obtain ⟨hechoed, hmail⟩ := List.append_eq_nil_iff.mp hafter
    have hopen := (h r).mailbox (.inr hwait)
    refine ⟨?_, ?_⟩
    · rw [probes, hself, hends]
      change _ ++ _ ++ ((T.ends r).keepalive.pongs.send nonce).queue =
        (T.ends r).keepalive.expected
      rw [← hmiddle, hasked, hechoed, hmail, Chan.send, hopen]
      simp [hmail]
    · rw [hends]
      exact fun _ => (Chan.send_closed ..).trans hopen
  · refine (h q.peer).of_same ?_ ?_ ?_
    · rw [hread, asked_cons, Frame.asks?, hack]
      rfl
    · rw [Role.peer_peer, hself]
    · simp [hT, left]

/-- **Every step keeps both probes paired** as long as the side that takes it
is not closing. -/
theorem Step.paired (hstep : Step q T T') (hq : (T.ends q).Orderly)
    (hopen : (T'.ends q).isClosing = false) (h : ∀ r, T.Paired r) (r : Role) :
    T'.Paired r := by
  cases hstep with
  | perform a =>
      rw [put_ends_self] at hopen
      exact paired_perform hq a hopen h r
  | @write fs rest hqueue =>
      have hsame : ∀ r', (T.wrote q fs rest).underWay r' = T.underWay r' := by
        intro r'
        rcases Role.eq_or_eq_peer q r' with rfl | rfl
        · simp [wrote, underWay, hqueue]
        · simp [wrote, underWay]
      refine (h r).of_same (by rw [hsame]) (by rw [hsame]) ?_
      rcases Role.eq_or_eq_peer q r with rfl | rfl <;> simp [wrote]
  | @read f rest hwire =>
      rw [left_ends_self] at hopen
      have hcl : (T.ends q).isClosing = false := by
        rw [Bool.eq_false_iff] at hopen ⊢
        exact mt (Control.says_receive hq f.normalize).closing hopen
      have hout : (T.ends q).out.closed = false := by
        rw [Bool.eq_false_iff] at hcl ⊢
        exact mt hq.outClosing hcl
      cases f with
      | ping flags nonce =>
          cases hack : flags.contains Flags.ack with
          | true =>
              refine paired_read_reply hack hwire h ?_ ?_ rfl r <;>
                simp [Frame.normalize, Control.receive, hack]
          | false =>
              refine paired_read_request hack hwire hout h ?_ r
              simp [Frame.normalize, Control.receive, hack]
      | goAway code =>
          exact absurd (Control.closing_initiateShutdown _ _)
            (Bool.eq_false_iff.mp hopen)
      | _ => exact paired_read_other hwire rfl rfl rfl rfl h r
  | refuse hrest =>
      rw [put_ends_self] at hopen
      exact absurd (Control.closing_initiateShutdown _ _) (Bool.eq_false_iff.mp hopen)
  | readerEnd code hrest =>
      rw [left_ends_self] at hopen
      exact absurd (Control.closing_initiateShutdown _ _) (Bool.eq_false_iff.mp hopen)
  | flush hclosing hqueue =>
      rw [put_ends_self] at hopen
      exact absurd hclosing (Bool.eq_false_iff.mp hopen)
  | abort hclosing hrest =>
      rw [put_ends_self] at hopen
      exact absurd hclosing (Bool.eq_false_iff.mp hopen)
  | exit hclosing hphase =>
      rw [put_ends_self] at hopen
      exact absurd hclosing (Bool.eq_false_iff.mp hopen)

end Signalling

/-! ## Every run -/

theorem Frame.isSignal_of_asks {f : Frame} {nonce : UInt32}
    (h : f.asks? = some nonce) : f.isSignal = true := by
  cases f <;> first | rfl | cases h

theorem Frame.isSignal_of_echoes {f : Frame} {nonce : UInt32}
    (h : f.echoes? = some nonce) : f.isSignal = true := by
  cases f <;> first | rfl | cases h

/-- Frames of streams carry no nonce. -/
theorem asked_signals (fs : List Frame) : asked (signals fs) = asked fs := by
  simp only [asked, signals, List.filterMap_filter]
  refine List.filterMap_congr fun f _ => ?_
  cases h : f.asks? with
  | none => exact ite_self _
  | some nonce => exact if_pos (Frame.isSignal_of_asks h)

theorem echoed_signals (fs : List Frame) : echoed (signals fs) = echoed fs := by
  simp only [echoed, signals, List.filterMap_filter]
  refine List.filterMap_congr fun f _ => ?_
  cases h : f.echoes? with
  | none => exact ite_self _
  | some nonce => exact if_pos (Frame.isSignal_of_echoes h)

namespace System

variable {cfg : Role → Config} {S : System}

theorem signalling_underWay (S : System) (r : Role) :
    S.signalling.underWay r = signals (S.underWay r) :=
  (signals_append ..).symm

theorem paired_init (cfg : Role → Config) (r : Role) :
    (init cfg).signalling.Paired r := by
  refine ⟨rfl, fun hrun => ?_⟩
  change (cfg r).keepaliveInterval.isNone = false
  rcases hrun with hrun | hwait
  · change (cfg r).keepaliveInterval.isSome = true at hrun
    cases hint : (cfg r).keepaliveInterval with
    | none => simp [hint] at hrun
    | some d => rfl
  · cases hwait

theorem Reachable.paired (h : Reachable cfg S) (hopen : S.Open) (r : Role) :
    S.signalling.Paired r := by
  obtain ⟨as, rfl⟩ := h
  have hrun := run_invariant_all System.step
    (I := fun S => Good cfg S ∧ (S.Open → ∀ r, S.signalling.Paired r)) ?_ as _
    ⟨good_init cfg, fun _ => paired_init cfg⟩
  · exact hrun.2 hopen r
  · rintro S a ⟨hgood, hpaired⟩
    refine ⟨(hgood.turn a).good hgood, fun hafter r => ?_⟩
    have hbefore := hpaired (hgood.open_of_step hafter)
    rcases hgood.signalling_step a with hsame | hstep
    · exact hsame ▸ hbefore r
    · exact hstep.paired (hgood.orderly a.role) (hafter a.role) hbefore r

/-- **One probe at a time, and none is thrown away.**  In every state of every
run in which neither session is closing, the probe a keepalive task waits for
is in exactly one place: under way as a request, under way as a reply, or in
the task's queue; a task that waits for none has none.  So a reply in the
queue always carries the nonce that `await_pong` expects. -/
theorem probe_outstanding (hS : Reachable cfg S) (hopen : S.Open) (r : Role) :
    asked (S.underWay r) ++ echoed (S.underWay r.peer) ++
        (S.ends r).keepalive.pongs.queue =
      (if (S.ends r).keepalive.awaiting then [(S.ends r).keepalive.nonce]
        else []) ∧
    ∀ nonce ∈ (S.ends r).keepalive.pongs.queue,
      (S.ends r).keepalive.awaiting = true ∧
        nonce = (S.ends r).keepalive.nonce := by
  have h := (hS.paired hopen r).outstanding
  rw [Signalling.probes, signalling_underWay, signalling_underWay,
    asked_signals, echoed_signals] at h
  refine ⟨h, fun nonce hmem => ?_⟩
  obtain ⟨before, after, hqueue⟩ := List.append_of_mem hmem
  change _ ++ _ ++ (S.ends r).keepalive.pongs.queue =
    (S.ends r).keepalive.expected at h
  rw [hqueue, ← List.append_assoc] at h
  obtain ⟨hwait, hnonce, -, -⟩ := Keepalive.expected_eq h
  exact ⟨hwait, hnonce⟩

/-- Both sides probe; the server has answered, and the client's reader has
handed the reply over. -/
def probeRun : List Action :=
  [⟨.client, .keepaliveTick⟩, ⟨.server, .keepaliveTick⟩,
    ⟨.client, .writerNext⟩, ⟨.server, .readerNext⟩, ⟨.server, .writerNext⟩,
    ⟨.server, .writerNext⟩, ⟨.client, .readerNext⟩, ⟨.client, .readerNext⟩]

theorem probe_outstanding_probeRun :
    ((after (fun _ => Config.default) probeRun).ends
        .client).keepalive.pongs.queue = [1] ∧
      asked ((after (fun _ => Config.default) probeRun).underWay .client) = [] :=
  have hqueue : ((after (fun _ => Config.default) probeRun).ends
      .client).keepalive.pongs.queue = [1] := by decide +kernel
  have hone := (probe_outstanding (S := after (fun _ => Config.default) probeRun)
    ⟨probeRun, rfl⟩ (by decide +kernel) .client).1
  ⟨hqueue, by
    obtain ⟨-, -, hbefore, -⟩ := Keepalive.expected_eq
      (k := ((after (fun _ => Config.default) probeRun).ends .client).keepalive)
      (hqueue ▸ hone)
    exact (List.append_eq_nil_iff.mp hbefore).1⟩

end System

end NetMux
