import NetMux.Link.Stall

/-!
# Writers whose peer has dropped the stream

Dropping a handle sends a `FIN` and has the closer take the stream out of the
registry.  It does not tell the peer that nobody will read any more: a writer
learns that from the `RST` which answers its next bytes.  A writer with no
credit has no next bytes to send.  When the dropped stream still owes its peer
the whole window, the writer is stranded.  When every removal leaves some
credit, some bytes or an `RST` on its way, no writer ever is.

A step is a whole call or the whole dispatch of a frame.  Where the parts of a
dispatch are steps of their own, as in the runs of `Net`, the closer may take a
stream away while the reader is about to deliver the last bytes of the window
to it.  The removal leaves some of the window, the bytes then use it up, and
the writer is stranded all the same.
-/

namespace NetMux

open Lib Lib.Run

/-! ## The invariant of one direction -/

/-- The stream exists on both sides, as far as its holder knows, and was not
given up before it had a handle. -/
def Cell.Joined (c : Cell) : Prop :=
  c.owner ≠ .gone ∧ (c.owner = .opening → c.inner.ackReceived = true)

theorem Cell.joined_of_owner {c : Cell} (hgone : c.owner ≠ .gone)
    (hopening : c.owner ≠ .opening) : c.Joined :=
  ⟨hgone, fun h => absurd h hopening⟩

/-- A writer whose peer has no entry for the stream is going to be told: an
`RST` is on its way to it, or it has credit to send bytes with, or bytes or
credit are on their way. -/
def Hope (S R : End) (fwd back : List Msg) : Prop :=
  ∀ c, R.cell = some c → c.Joined → R.registered = false →
    R.closing = false → S.closing = false → S.mayWrite = true →
      Msg.rst ∈ back ∨
        0 < S.available + (Msg.payloads fwd).length + Msg.grants back

/-- A stream leaves the registry of a running session by the closer's hand,
or because its `open()` gave up. -/
theorem LocalStep.unregistered {cfg : Config} {i : StreamId} {r : Role}
    {E E' : End} {e : Ev} {ms : List Msg} (h : LocalStep cfg i r E e E' ms)
    (hE : EndOk cfg i E) {c' : Cell} (hc' : E'.cell = some c') (hj : c'.Joined)
    (hreg : E'.registered = false) (hcl : E'.closing = false) :
    (E.registered = false ∨ e = .remove r) ∧
      ∃ c, E.cell = some c ∧ c.Joined := by
  have hheld : ∀ {c : Cell}, c.owner = .handle → c.Joined := fun howner =>
    Cell.joined_of_owner (by rw [howner]; decide) (by rw [howner]; decide)
  cases h with
  | opened hown hcell hout => cases hreg
  | connected hcell howner hack =>
      exact ⟨.inl hreg, _, hcell, by rw [howner]; decide, fun _ => hack⟩
  | abandoned keep hcell howner =>
      obtain rfl := Option.some.inj hc'
      exact absurd rfl hj.1
  | timedOut hcell howner =>
      obtain rfl := Option.some.inj hc'
      exact absurd rfl hj.1
  | accepted hcell howner hout =>
      exact ⟨.inl hreg, _, hcell, Cell.joined_of_owner
        (by rw [howner]; decide) (by rw [howner]; decide)⟩
  | read remaining hcell howner => exact ⟨.inl hreg, _, hcell, hheld howner⟩
  | wrote buf hcell howner _ _ => exact ⟨.inl hreg, _, hcell, hheld howner⟩
  | writeFailed hcell howner _ => exact ⟨.inl hreg, _, hcell, hheld howner⟩
  | finished hcell howner _ => exact ⟨.inl hreg, _, hcell, hheld howner⟩
  | dropped hcell howner _ => exact ⟨.inl hreg, _, hcell, hheld howner⟩
  | reset hcell howner => exact ⟨.inl hreg, _, hcell, hheld howner⟩
  | faulted hcell hdone =>
      have hclosing := hE.doneClosing hdone
      rw [show E.closing = false from hcl] at hclosing
      cases hclosing
  | shutdown hopen => cases hcl
  | readerDone hclosing => exact ⟨.inl hreg, _, hc', hj⟩
  | removed hcell hrel => exact ⟨.inr rfl, _, hc', hj⟩

namespace Hope

variable {cfg : Config} {i : StreamId} {r : Role} {S R S' R' : End} {e : Ev}
  {m : Msg} {fwd back rest ms : List Msg}

/-- The writing end acts: bytes are paid for with as much credit. -/
theorem sender_acts (h : Hope S R fwd back) (hs : LocalStep cfg i r S e S' ms)
    (hfresh : S.cell = none → r.owns i = true → R.cell = none) :
    Hope S' R (fwd ++ S.post ms) back := by
  intro c hc hj hreg hclR hclS hw
  cases hcell : S.cell with
  | none =>
      rcases hs.none_silent hcell with ⟨hnone, -⟩ | ⟨hown, -⟩
      · rw [End.mayWrite_none hnone] at hw
        cases hw
      · rw [hfresh hcell hown] at hc
        cases hc
  | some d =>
      have hne : S.cell ≠ none := by simp [hcell]
      have hbefore := h c hc hj hreg hclR (hs.flags.2.2 hclS)
        (hs.mayWrite hne hw)
      refine hbefore.imp_right fun hpos => ?_
      rw [Msg.payloads_append, List.length_append]
      rcases hs.writes with ⟨-, hav, -⟩ | ⟨p, d, rfl, -, hav, hout, -⟩
      · rw [hav hne]
        omega
      · simp only [End.post, hout, Bool.false_eq_true, if_false,
          Msg.payloads_cons, Msg.payloads_nil, Msg.payload, List.append_nil]
        omega

/-- The other end acts: a removal leaves the writer with hope. -/
theorem receiver_acts (h : Hope S R fwd back) (hs : LocalStep cfg i r R e R' ms)
    (hR : EndOk cfg i R)
    (hremove : e = .remove r → R.registered = true → R.closing = false →
      S.closing = false → S.mayWrite = true → Msg.rst ∈ back ∨
        0 < S.available + (Msg.payloads fwd).length + Msg.grants back) :
    Hope S R' fwd (back ++ R.post ms) := by
  intro c' hc' hj hreg hclR hclS hw
  obtain ⟨hcase, c, hc, hjc⟩ := hs.unregistered hR hc' hj hreg hclR
  have hclR := hs.flags.2.2 hclR
  have hbefore : Msg.rst ∈ back ∨
      0 < S.available + (Msg.payloads fwd).length + Msg.grants back := by
    cases hregR : R.registered with
    | false => exact h c hc hjc hregR hclR hclS hw
    | true =>
        have he := hcase.resolve_left (by rw [hregR]; decide)
        exact hremove he hregR hclR hclS hw
  rw [Msg.grants_append]
  exact hbefore.imp (List.mem_append_left _) fun hpos => by omega

/-- A message reaches the other end: bytes it has no stream for are answered
with an `RST`. -/
theorem receiver_hears (h : Hope S R (m :: rest) back)
    (hs : DeliverStep cfg i r R m e R' ms) (hR : EndOk cfg i R) :
    Hope S R' rest (back ++ R.post ms) := by
  intro c' hc' hj hreg hclR hclS hw
  rw [hs.flags.2.2.1] at hclR
  have hrunning : R.outClosed = false ∧ R.readerDone = false := by
    constructor
    · by_contra hout
      rw [hR.outClosing (Bool.not_eq_false _ ▸ hout)] at hclR
      cases hclR
    · by_contra hdone
      rw [hR.doneClosing (Bool.not_eq_false _ ▸ hdone)] at hclR
      cases hclR
  have hdeaf : R'.registered = R.registered → R.listening = false := by
    intro heq
    rw [End.listening, ← heq, hreg, Bool.false_and]
  cases hs with
  | created _ _ => cases hreg
  | refused _ _ =>
      left
      simp [End.post, hrunning.1]
  | ignored hm =>
      have hempty : m.payload = [] := by
        rcases hm with ⟨-, hm⟩ | hdone
        · cases m with
          | data p => cases hm
          | _ => rfl
        · rw [hrunning.2] at hdone
          cases hdone
      have hbefore := h c' hc' hj hreg hclR hclS hw
      rw [Msg.payloads_cons, hempty, List.nil_append] at hbefore
      rw [Msg.grants_append]
      exact hbefore.imp (List.mem_append_left _) fun hpos => by omega
  | acked _ hl => exact absurd hl (by rw [hdeaf rfl]; decide)
  | data _ hl _ => exact absurd hl (by rw [hdeaf rfl]; decide)
  | fin _ hl => exact absurd hl (by rw [hdeaf rfl]; decide)
  | rst _ hl => exact absurd hl (by rw [hdeaf rfl]; decide)
  | credit _ hl => exact absurd hl (by rw [hdeaf rfl]; decide)

/-- A message reaches the writing end: credit becomes its own, and an `RST`
closes its write half. -/
theorem sender_hears (h : Hope S R fwd (m :: rest))
    (hs : DeliverStep cfg i r S m e S' ms) (hS : EndOk cfg i S)
    (hroom : S.available + m.granted < 2 ^ 32)
    (hpeer : ∀ c, R.cell = some c → c.Joined → S.cell ≠ none) :
    Hope S' R (fwd ++ S.post ms) rest := by
  intro c hc hj hreg hclR hclS hw
  rw [hs.flags.2.2.1] at hclS
  have hne := hpeer c hc hj
  have hwS := hs.mayWrite hne hw
  have hregS : S.registered = true := by
    by_contra hregS
    rw [hS.mayWrite_removed (Bool.not_eq_true _ ▸ hregS)] at hwS
    cases hwS
  have hl := hS.listening_of_registered hclS hregS
  have hav := hs.grants hne hl hroom
  rw [Msg.payloads_append, List.length_append]
  rcases h c hc hj hreg hclR hclS hwS with hrst | hpos
  · rcases List.mem_cons.mp hrst with rfl | hrst
    · cases hs with
      | rst hcell _ =>
          simp [End.mayWrite, StreamInner.remoteReset,
            StreamState.markReset] at hw
      | refused hreg' _ =>
          rw [hregS] at hreg'
          cases hreg'
      | ignored hm =>
          rcases hm with ⟨hreg', -⟩ | hdone
          · rw [hregS] at hreg'
            cases hreg'
          · simp [End.listening, hdone] at hl
    · exact .inl hrst
  · right
    rw [Msg.grants_cons] at hpos
    omega

end Hope

/-! ## Both directions -/

/-- An event that leaves writers with hope: when the closer takes a stream
out of the registry whose peer may still write, an `RST` is on its way or the
stream owes its peer less than the peer's window. -/
def Ev.Spares (cfg : Role → Config) (e : Ev) (L : Pipe) : Prop :=
  ∀ r, e = .remove r → (L.ends r).registered = true →
    (L.ends r.peer).mayWrite = true → Msg.rst ∈ L.chan r ∨
      (L.ends r).unread.length + (L.ends r).pending <
        (cfg r.peer).initialStreamWindow.toNat

namespace Pipe

variable {cfg : Role → Config} {i : StreamId} {L L' : Pipe} {e : Ev}

/-- A stream that its holder knows to exist on both sides does. -/
theorem Sound.peer_of_joined (h : Sound cfg i L) {r : Role} {c : Cell}
    (hc : (L.ends r).cell = some c) (hj : c.Joined) :
    (L.ends r.peer).cell ≠ none := by
  rcases Role.eq_or_eq_peer (Role.opener i) r with rfl | rfl
  · refine h.hand.acked c hc ?_
    cases howner : c.owner with
    | opening => exact .inl (hj.2 howner)
    | queued => exact absurd howner (h.hand.notQueued c hc)
    | handle => exact .inr (.inl rfl)
    | dropped => exact .inr (.inr rfl)
    | gone => exact absurd howner hj.1
  · rw [Role.peer_peer]
    intro hnone
    rw [(h.hand.fresh hnone).1] at hc
    cases hc

/-- Every writer of the pipe has hope. -/
def Hopeful (L : Pipe) : Prop :=
  ∀ r, Hope (L.ends r) (L.ends r.peer) (L.chan r) (L.chan r.peer)

namespace Hopeful

/-- Seen from the other side. -/
theorem peer (h : Hopeful L) (r : Role) :
    Hope (L.ends r.peer) (L.ends r) (L.chan r.peer) (L.chan r) := by
  simpa only [Role.peer_peer] using h r.peer

theorem act (h : Hopeful L) (hinv : Inv cfg i L) {r : Role} {E : End}
    {ms : List Msg} (hs : LocalStep (cfg r) i r (L.ends r) e E ms)
    (hok : e.Spares cfg L) :
    Hopeful (L.set r E (L.chan r ++ (L.ends r).post ms) (L.chan r.peer)) := by
  have hsound := hinv.sound
  refine (Role.forall_iff r).mpr ?_
  simp only [set_ends_self, set_ends_peer, set_chan_self, set_chan_peer,
    Role.peer_peer]
  refine ⟨(h r).sender_acts hs fun hnone hown => (hsound.unopened hnone hown).1,
    (h.peer r).receiver_acts hs (hsound.ends r) ?_⟩
  intro he hreg hclR hclS hw
  refine (hok r he hreg hw).imp_right fun hless => ?_
  -- what the stream does not owe, the writer has or gets
  have hregS : (L.ends r.peer).registered = true := by
    by_contra hregS
    rw [(hsound.ends r.peer).mayWrite_removed (Bool.not_eq_true _ ▸ hregS)]
      at hw
    cases hw
  have hsum := (hinv.credit_peer r).conserved hclS hclR hregS (.inr hreg)
  omega

theorem deliver (h : Hopeful L) (hinv : Inv cfg i L) {r : Role} {E : End}
    {m : Msg} {rest ms : List Msg} (hchan : L.chan r.peer = m :: rest)
    (hs : DeliverStep (cfg r) i r (L.ends r) m e E ms) :
    Hopeful (L.set r E (L.chan r ++ (L.ends r).post ms) rest) := by
  have hsound := hinv.sound
  have hself := h r
  have hback := h.peer r
  have hbound := (hinv.credit r).bound
  have hlt := (cfg r).initialStreamWindow.toNat_lt
  rw [hchan] at hself hback hbound
  rw [Msg.grants_cons] at hbound
  refine (Role.forall_iff r).mpr ?_
  simp only [set_ends_self, set_ends_peer, set_chan_self, set_chan_peer,
    Role.peer_peer]
  refine ⟨hself.sender_hears hs (hsound.ends r) (by omega) fun c hc hj => ?_,
    hback.receiver_hears hs (hsound.ends r)⟩
  simpa only [Role.peer_peer] using hsound.peer_of_joined hc hj

/-- A closing end hopes for nothing. -/
theorem of_closing {r : Role} {E : End} {sent : List Msg}
    (hcl : E.closing = true) :
    Hopeful (L.set r E sent (L.chan r.peer)) := by
  refine (Role.forall_iff r).mpr ?_
  simp only [set_ends_self, set_ends_peer, set_chan_self, set_chan_peer,
    Role.peer_peer]
  constructor
  · intro c _ _ _ _ hclS
    rw [hcl] at hclS
    cases hclS
  · intro c _ _ _ hclR
    rw [hcl] at hclR
    cases hclR

/-- **Steps that spare the writers keep a pipe hopeful.** -/
theorem step (h : Hopeful L) (hinv : Inv cfg i L)
    (hs : PipeStep cfg i e L L') (hok : e.Spares cfg L) : Hopeful L' := by
  cases hs with
  | act r hs => exact h.act hinv hs hok
  | deliver r hchan hs => exact h.deliver hinv hchan hs
  | cut r hclosing hsent => exact of_closing hclosing
  | lost r hclosing hsent => exact of_closing hclosing

end Hopeful

end Pipe

/-! ## Runs -/

namespace System

variable {cfg : Role → Config} {S : System}

/-- Stream `i` strands its writer `r`: the handle is live and open and has no
credit, the peer has dropped its handle and has no entry for the stream, both
sessions run, and no frame of the stream is under way. -/
def Stranded (S : System) (r : Role) (i : StreamId) : Prop :=
  (∃ d ∈ (S.ends r).streams, d.id = i ∧ d.Writable ∧
    d.inner.sendWindow.available = 0) ∧
  (∃ c ∈ (S.ends r.peer).streams, c.id = i ∧ c.owner = .dropped) ∧
  (S.ends r.peer).registry.get i = none ∧
  (S.ends r).isClosing = false ∧ (S.ends r.peer).isClosing = false ∧
  ∀ r', ∀ f ∈ S.underWay r', f.streamId? ≠ some i

/-- The action takes a stream out of the registry whose peer may still write,
with no `RST` on its way, and which owes the peer its whole window: the bytes
not read and the credit not returned. -/
def strands (S : System) (a : Action) : Bool :=
  let s := S.ends a.role
  let t := S.ends a.role.peer
  match a.act, s.closer.queue with
  | .closerNext, id :: _ =>
      match s.find id with
      | none => false
      | some (_, c) =>
          (t.streams.any fun d =>
            d.id == id && d.live && d.inner.state.writeOpen) &&
          decide (Frame.rst id ∉ S.underWay a.role) &&
          decide (t.config.initialStreamWindow.toNat ≤
            c.inner.recv.contents.length +
              c.inner.recvWindow.pendingCredit.toNat)
  | _, _ => false

/-- A removal that does not strand the peer spares it. -/
theorem Good.spares (h : Good cfg S) {a : Action}
    (hstrand : S.strands a = false) {i : StreamId} {e : Ev} {L : Pipe}
    (hp : S.Permits a i e L) : e.Spares cfg L := by
  intro r he hreg hw
  cases hp with
  | removed hact hhead =>
      cases he
      cases hf : (S.ends a.role).find i with
      | none =>
          have hreg' := (h.wf a.role).find_none hf
          rw [show ((S.ends a.role).endOf i).registered = true from hreg]
            at hreg'
          cases hreg'
      | some p =>
          obtain ⟨n, c⟩ := p
          obtain ⟨hc, hid, -⟩ := (h.wf a.role).find_some hf
          have hcell := h.cell hc
          rw [hid] at hcell
          have hany : ((S.ends a.role.peer).streams.any fun d =>
              d.id == i && d.live && d.inner.state.writeOpen) = true := by
            cases hd : ((S.pipe i).ends a.role.peer).cell with
            | none =>
                rw [End.mayWrite_none hd] at hw
                cases hw
            | some d =>
                rw [End.mayWrite_some hd] at hw
                obtain ⟨hmem, hid'⟩ := Keyed.lookup_some hd
                refine List.any_eq_true.mpr ⟨d, hmem, ?_⟩
                rw [Bool.and_assoc, hw, Bool.and_true]
                exact beq_iff_eq.mpr hid'
          by_cases hrst : Frame.rst i ∈ S.underWay a.role
          · exact .inl (List.mem_filterMap.mpr
              ⟨_, hrst, (Frame.msg?_frame i i .rst).trans (if_pos rfl)⟩)
          · right
            simp [strands, hact, hhead, hf, hany, hrst,
              (h.wf a.role.peer).config] at hstrand
            simpa [End.unread, End.pending, hcell] using hstrand
  | _ => cases he

/-- What holds along runs in which no removal strands a writer. -/
theorem hopeful_after (cfg : Role → Config) {as : List Action}
    (hrun : Along step (fun S a => S.strands a = false) (init cfg) as) :
    ∀ i, ((after cfg as).pipe i).Hopeful := by
  refine (run_invariant step
    (I := fun S => Good cfg S ∧ ∀ i, (S.pipe i).Hopeful) ?_ as _
    ⟨good_init cfg, fun i r c hc => ?_⟩ hrun).2
  · rintro S a ⟨h, hhope⟩ hstrand
    refine ⟨(h.turn a).good h, fun i => ?_⟩
    refine (((h.turn a).moves i).invariant
      (I := fun L => Pipe.Inv cfg i L ∧ L.Hopeful) ?_
      ⟨h.pipes i, hhope i⟩).2
    rintro e L L' ⟨hinv, hL⟩ hp hs
    exact ⟨hinv.step hs, hL.step hinv hs (h.spares hstrand hp)⟩
  · rw [pipe_init] at hc
    cases hc

/-- **No writer is stranded by its peer dropping the handle**, in every run in
which no closer takes a stream out of the registry that owes its peer the
peer's whole window while the peer may still write and no `RST` is on its way
to it. -/
theorem not_stranded (cfg : Role → Config) (as : List Action)
    (hrun : Along step (fun S a => S.strands a = false) (init cfg) as)
    (r : Role) (i : StreamId) : ¬ (after cfg as).Stranded r i := by
  rintro ⟨⟨d, hd, rfl, hwd, hav⟩, ⟨c, hc, hid, howner⟩, hreg, hcl, hcl', hnone⟩
  have h := good_after cfg as
  have hcelld := h.cell_of_mem hd
  have hcellc := h.cell_of_mem hc
  rw [hid] at hcellc
  have hw : (((after cfg as).pipe d.id).ends r).mayWrite = true := by
    rw [End.mayWrite_some hcelld, Cell.live_handle hwd.1, hwd.2.2]
    rfl
  have hgone : (((after cfg as).pipe d.id).ends r.peer).registered = false := by
    show ((after cfg as).ends r.peer |>.registry.get d.id).isSome = false
    rw [hreg]
    rfl
  have hjoined : c.Joined :=
    Cell.joined_of_owner (by rw [howner]; decide) (by rw [howner]; decide)
  rcases hopeful_after cfg hrun d.id r c hcellc hjoined hgone hcl' hcl hw
    with hrst | hpos
  · exact hnone r.peer _ (h.frame_mem hrst) rfl
  · rw [h.payloads_chan, h.grants_chan, (underWay_none (hnone r)).1,
      (underWay_none (hnone r.peer)).2] at hpos
    simp [End.available, hcelld, hav] at hpos

/-- Windows of one byte. -/
def tiny : Role → Config :=
  fun _ => { Config.default with initialStreamWindow := 1 }

/-- The client writes the one byte it has credit for, and the server receives
it. -/
def fillRun : List Action :=
  [⟨.client, .openStart⟩, ⟨.client, .writerNext⟩, ⟨.server, .readerNext⟩,
    ⟨.server, .accept⟩, ⟨.server, .writerNext⟩, ⟨.client, .readerNext⟩,
    ⟨.client, .openPoll 0⟩, ⟨.client, .pollWrite 0 [7]⟩,
    ⟨.client, .writerNext⟩, ⟨.server, .readerNext⟩]

/-- The server drops its handle, its closer removes the stream, and all its
frames reach the client. -/
def leaveRun : List Action :=
  [⟨.server, .drop 0⟩, ⟨.server, .closerNext⟩, ⟨.server, .writerNext⟩,
    ⟨.server, .writerNext⟩, ⟨.client, .readerNext⟩, ⟨.client, .readerNext⟩]

/-- If the server has not read the byte, the client is stranded. -/
theorem fillRun_strands :
    (after tiny (fillRun ++ leaveRun)).Stranded .client 1 := by
  refine ⟨?_, ?_, ?_, ?_, ?_, fun r => ?_⟩
  case refine_6 => cases r <;> decide +kernel
  all_goals decide +kernel

/-- The server reads the byte before it leaves. -/
def readRun : List Action :=
  fillRun ++ ⟨.server, .pollRead 0 1⟩ :: leaveRun

/-- Then it is not. -/
theorem not_stranded_readRun :
    ((after tiny readRun).ends .server).registry.get 1 = none ∧
      ∀ r i, ¬ (after tiny readRun).Stranded r i :=
  ⟨by decide +kernel, not_stranded tiny readRun (by decide +kernel)⟩

end System

end NetMux
