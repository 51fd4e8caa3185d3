import NetMux.Link.Handshake

/-!
# The order of messages, and the invariant of a pipe

A sender that has sent a `FIN` or `RST` sends no data after it, and an end
that has received one (or was closed by its own session) expects none.  This
is what makes data behind a closed read half impossible, except when the
reader's own user reset the stream.

`Pipe.Sound` joins this to the invariants of the ends and of the handshake:
**every step keeps it** (`Pipe.Sound.step`).
-/

namespace NetMux

/-! ## Writing is given up for good -/

namespace End

theorem mayWrite_some {E : End} {c : Cell} (h : E.cell = some c) :
    E.mayWrite = (c.live && c.inner.state.writeOpen) := by
  simp [mayWrite, h]

theorem mayWrite_none {E : End} (h : E.cell = none) : E.mayWrite = false := by
  simp [mayWrite, h]

/-- A later state of a stream can write only if the earlier could. -/
theorem mayWrite_later {E E' : End} {c c' : Cell} (hc : E.cell = some c)
    (hc' : E'.cell = some c') (hl : Cell.Later c c')
    (h : E'.mayWrite = true) : E.mayWrite = true := by
  rw [mayWrite_some hc', Bool.and_eq_true] at h
  rw [mayWrite_some hc, Bool.and_eq_true]
  refine ⟨hl.live h.1, ?_⟩
  by_contra hw
  rw [Bool.not_eq_true] at hw
  rw [hl.writeShut hw] at h
  exact absurd h.2 (by decide)

end End

theorem LocalStep.mayWrite {cfg : Config} {i : StreamId} {r : Role}
    {E E' : End} {e : Ev} {ms : List Msg} (h : LocalStep cfg i r E e E' ms)
    (hcell : E.cell ≠ none) (hw : E'.mayWrite = true) :
    E.mayWrite = true := by
  obtain ⟨c, hc⟩ := Option.ne_none_iff_exists'.mp hcell
  obtain ⟨c', hc', hl⟩ := h.later hc
  exact End.mayWrite_later hc hc' hl hw

theorem DeliverStep.mayWrite {cfg : Config} {i : StreamId} {r : Role}
    {E E' : End} {m : Msg} {e : Ev} {ms : List Msg}
    (h : DeliverStep cfg i r E m e E' ms) (hcell : E.cell ≠ none)
    (hw : E'.mayWrite = true) : E.mayWrite = true := by
  obtain ⟨c, hc⟩ := Option.ne_none_iff_exists'.mp hcell
  obtain ⟨c', hc', hl⟩ := h.later hc
  exact End.mayWrite_later hc hc' hl hw

/-- Data is sent only by a write on an open handle. -/
theorem LocalStep.payload {cfg : Config} {i : StreamId} {r : Role}
    {E E' : End} {e : Ev} {ms : List Msg} (h : LocalStep cfg i r E e E' ms) :
    (∀ m ∈ ms, m.payload = []) ∨
      (E.mayWrite = true ∧ ∃ p, ms = [.data p]) := by
  cases h with
  | wrote buf hcell howner hopen hout =>
      right
      rw [End.mayWrite_some hcell, Cell.live_handle howner, hopen]
      exact ⟨rfl, _, rfl⟩
  | read remaining hcell howner =>
      left
      intro m hm
      obtain ⟨delta, rfl⟩ := Cell.readMsgs_credit _ _ hm
      rfl
  | reset hcell howner =>
      left
      intro m hm
      rw [Cell.mem_resetMsgs hm]
      rfl
  | faulted hcell hdone =>
      left
      intro m hm
      rw [Cell.mem_resetMsgs hm]
      rfl
  | _ =>
      left
      simp [Msg.payload]

/-- A side by itself closes its read half only by a reset of its own or by
going deaf. -/
theorem LocalStep.heard {cfg : Config} {i : StreamId} {r : Role}
    {E E' : End} {e : Ev} {ms : List Msg} (h : LocalStep cfg i r E e E' ms)
    {c' : Cell} (hc' : E'.cell = some c') (hl : E'.listening = true)
    (hr : c'.inner.state.readOpen = false) (hu : c'.userReset = false) :
    ∃ c, E.cell = some c ∧ E.listening = true ∧
      c.inner.state.readOpen = false ∧ c.userReset = false := by
  cases h with
  | opened hown hcell hout =>
      obtain rfl := Option.some.inj hc'
      cases hr
  | abandoned keep hcell howner =>
      obtain rfl := Option.some.inj hc'
      refine ⟨_, hcell, ?_, hr, hu⟩
      simp only [End.listening, Bool.and_eq_true] at hl ⊢
      exact ⟨hl.1.1, hl.2⟩
  | timedOut hcell howner => simp [End.listening] at hl
  | read remaining hcell howner =>
      obtain rfl := Option.some.inj hc'
      rw [Cell.read_state] at hr
      exact ⟨_, hcell, hl, hr, hu⟩
  | reset hcell howner =>
      obtain rfl := Option.some.inj hc'
      cases hu
  | faulted hcell hdone => simp [End.listening, hdone] at hl
  | shutdown hopen => simp [End.listening] at hl
  | readerDone hclosing => simp [End.listening] at hl
  | removed hcell hrel => simp [End.listening] at hl
  | connected hcell _ _ =>
      obtain rfl := Option.some.inj hc'
      exact ⟨_, hcell, hl, hr, hu⟩
  | accepted hcell _ _ =>
      obtain rfl := Option.some.inj hc'
      exact ⟨_, hcell, hl, hr, hu⟩
  | wrote buf hcell _ _ _ =>
      obtain rfl := Option.some.inj hc'
      exact ⟨_, hcell, hl, hr, hu⟩
  | writeFailed hcell _ _ =>
      obtain rfl := Option.some.inj hc'
      exact ⟨_, hcell, hl, hr, hu⟩
  | finished hcell _ _ =>
      obtain rfl := Option.some.inj hc'
      exact ⟨_, hcell, hl, hr, hu⟩
  | dropped hcell _ _ =>
      obtain rfl := Option.some.inj hc'
      exact ⟨_, hcell, hl, hr, hu⟩

/-- A side that sends a final message is done writing. -/
theorem LocalStep.final {cfg : Config} {i : StreamId} {r : Role}
    {E E' : End} {e : Ev} {ms : List Msg} (h : LocalStep cfg i r E e E' ms)
    {m : Msg} (hm : m ∈ ms) (hf : m.final = true) : E'.mayWrite = false := by
  cases h with
  | timedOut hcell howner => simp [End.mayWrite, Cell.live, Owner.live]
  | finished hcell howner hopen => simp [End.mayWrite, Cell.finished]
  | read remaining hcell howner =>
      obtain ⟨delta, rfl⟩ := Cell.readMsgs_credit _ _ hm
      cases hf
  | reset hcell howner =>
      simp [End.mayWrite, StreamInner.localReset_reset]
  | faulted hcell hdone =>
      simp [End.mayWrite, StreamInner.localReset_reset]
  | opened hown hcell hout =>
      obtain rfl := List.mem_singleton.mp hm
      cases hf
  | accepted hcell howner hout =>
      obtain rfl := List.mem_singleton.mp hm
      cases hf
  | wrote buf hcell howner hopen hout =>
      obtain rfl := List.mem_singleton.mp hm
      cases hf
  | _ => cases hm

/-! ## The discipline of one direction -/

/-- One direction of a pipe: the sending end, the receiving end, and the
messages between them. -/
structure Discipline (S R : End) (fwd : List Msg) : Prop where
  order : fwd.Pairwise fun m m' => m.final = true → m'.payload = []
  final : ∀ m ∈ fwd, m.final = true → S.mayWrite = false
  shut : ∀ c, R.cell = some c → R.listening = true →
    c.inner.state.readOpen = false → c.userReset = false →
      S.mayWrite = false ∧ ∀ m ∈ fwd, m.payload = []

namespace Discipline

variable {S R S' R' : End} {fwd ms : List Msg}

theorem send (h : Discipline S R fwd)
    (hmay : S'.mayWrite = true → S.mayWrite = true)
    (hpay : ∀ m ∈ ms, m.payload = [])
    (hfin : ∀ m ∈ ms, m.final = true → S'.mayWrite = false) :
    Discipline S' R (fwd ++ ms) where
  order := by
    rw [List.pairwise_append]
    refine ⟨h.order, ?_, fun m _ m' hm' _ => hpay m' hm'⟩
    exact List.Pairwise.imp_of_mem
      (fun {m m'} _ hm' _ _ => hpay m' hm') (List.pairwise_of_forall
        (fun _ _ => trivial))
  final := by
    intro m hm hf
    rcases List.mem_append.mp hm with hm | hm
    · by_contra hw
      rw [Bool.not_eq_false] at hw
      rw [h.final m hm hf] at hmay
      exact absurd (hmay hw) (by decide)
    · exact hfin m hm hf
  shut := by
    intro c hc hl hr hu
    obtain ⟨hw, hnone⟩ := h.shut c hc hl hr hu
    constructor
    · by_contra hw'
      rw [Bool.not_eq_false] at hw'
      rw [hw] at hmay
      exact absurd (hmay hw') (by decide)
    · intro m hm
      rcases List.mem_append.mp hm with hm | hm
      · exact hnone m hm
      · exact hpay m hm

/-- Data is appended while writing is possible, hence before any final
message. -/
theorem write (h : Discipline S R fwd) (hw : S.mayWrite = true) (p : Bytes) :
    Discipline S' R (fwd ++ [.data p]) where
  order := by
    rw [List.pairwise_append]
    refine ⟨h.order, List.pairwise_singleton _ _, ?_⟩
    intro m hm m' _ hf
    rw [h.final m hm hf] at hw
    cases hw
  final := by
    intro m hm hf
    rcases List.mem_append.mp hm with hm | hm
    · rw [h.final m hm hf] at hw
      cases hw
    · obtain rfl := List.mem_singleton.mp hm
      cases hf
  shut := by
    intro c hc hl hr hu
    rw [(h.shut c hc hl hr hu).1] at hw
    cases hw

/-- The receiving end changes without closing its read half. -/
theorem receive (h : Discipline S R fwd)
    (hkeep : ∀ c', R'.cell = some c' → R'.listening = true →
      c'.inner.state.readOpen = false → c'.userReset = false →
        ∃ c, R.cell = some c ∧ R.listening = true ∧
          c.inner.state.readOpen = false ∧ c.userReset = false) :
    Discipline S R' fwd where
  order := h.order
  final := h.final
  shut := by
    intro c' hc' hl hr hu
    obtain ⟨c, hc, hl, hr, hu⟩ := hkeep c' hc' hl hr hu
    exact h.shut c hc hl hr hu

/-- Losing messages does no harm. -/
theorem shrink (h : Discipline S R fwd) {fwd' : List Msg}
    (hsub : fwd'.Sublist fwd) : Discipline S R fwd' where
  order := h.order.sublist hsub
  final := fun m hm => h.final m (hsub.subset hm)
  shut := by
    intro c hc hl hr hu
    obtain ⟨hw, hnone⟩ := h.shut c hc hl hr hu
    exact ⟨hw, fun m hm => hnone m (hsub.subset hm)⟩

section Steps

variable {cfg : Config} {i : StreamId} {r : Role} {e : Ev} {m : Msg}
  {rest : List Msg}

/-- The sending end acts. -/
theorem sender_acts (h : Discipline S R fwd) (hs : LocalStep cfg i r S e S' ms)
    (hfresh : S.cell = none → r.owns i = true → R.cell = none ∧ fwd = []) :
    Discipline S' R (fwd ++ S.post ms) := by
  by_cases hcell : S.cell = none
  · rcases hs.none_silent hcell with ⟨hnone, rfl⟩ | ⟨hown, hout, rfl, rfl⟩
    · refine h.send ?_ ?_ ?_
      · rw [End.mayWrite_none hnone]
        exact fun hw => by cases hw
      · exact fun m hm => by cases End.mem_post hm
      · exact fun m hm => by cases End.mem_post hm
    · obtain ⟨hR, rfl⟩ := hfresh hcell hown
      refine ⟨by simp [End.post, hout], by simp [End.post, hout, Msg.final], ?_⟩
      intro c hc
      rw [hR] at hc
      cases hc
  · rcases hs.payload with hpay | ⟨hw, p, rfl⟩
    · exact h.send (hs.mayWrite hcell) (fun m hm => hpay m (End.mem_post hm))
        (fun m hm => hs.final (End.mem_post hm))
    · by_cases hout : S.outClosed = true
      · have hpost : S.post [.data p] = [] := by simp [End.post, hout]
        rw [hpost]
        exact h.send (hs.mayWrite hcell) (by simp) (by simp)
      · have hpost : S.post [.data p] = [.data p] := by simp [End.post, hout]
        rw [hpost]
        exact h.write hw p

/-- The receiving end acts. -/
theorem receiver_acts (h : Discipline S R fwd) (hs : LocalStep cfg i r R e R' ms) :
    Discipline S R' fwd :=
  h.receive fun _ hc' hl hr hu => hs.heard hc' hl hr hu

/-- A message reaches the receiving end.  A final message is followed by no
data, and its sender is done. -/
theorem receiver_hears (h : Discipline S R (m :: rest))
    (hs : DeliverStep cfg i r R m e R' ms) : Discipline S R' rest := by
  have hrest := h.shrink (List.sublist_cons_self m rest)
  have hfinal : m.final = true →
      S.mayWrite = false ∧ ∀ m' ∈ rest, m'.payload = [] := by
    intro hf
    refine ⟨h.final m (List.mem_cons_self ..) hf, fun m' hm' => ?_⟩
    exact (List.pairwise_cons.mp h.order).1 m' hm' hf
  cases hs with
  | created hcell hdone =>
      refine hrest.receive ?_
      rintro c' ⟨⟩ _ hr
      cases hr
  | acked hcell hlisten =>
      refine hrest.receive ?_
      rintro c' ⟨⟩ hl hr hu
      exact ⟨_, hcell, hl, hr, hu⟩
  | data hcell hlisten hopen =>
      refine hrest.receive ?_
      rintro c' ⟨⟩ hl hr hu
      rw [StreamInner.pushData_state] at hr
      exact ⟨_, hcell, hl, hr, hu⟩
  | fin hcell hlisten =>
      exact ⟨hrest.order, hrest.final, fun _ _ _ _ _ => hfinal rfl⟩
  | rst hcell hlisten =>
      exact ⟨hrest.order, hrest.final, fun _ _ _ _ _ => hfinal rfl⟩
  | credit hcell hlisten =>
      refine hrest.receive ?_
      rintro c' ⟨⟩ hl hr hu
      exact ⟨_, hcell, hl, hr, hu⟩
  | refused hreg hm => exact hrest
  | ignored hm => exact hrest

/-- A message reaches the sending end.  When that is the `SYN`, nothing was
sent yet and the other end has heard nothing. -/
theorem sender_hears (h : Discipline S R fwd)
    (hs : DeliverStep cfg i r S m e S' ms) (hS : EndOk cfg i S)
    (hnew : m = .syn → S.cell = none → fwd = [] ∧
      ∀ c, R.cell = some c → R.listening = true →
        c.inner.state.readOpen = true) :
    Discipline S' R (fwd ++ S.post ms) := by
  by_cases hcell : S.cell = none
  · cases hs with
    | created hnone hdone =>
        obtain ⟨rfl, hread⟩ := hnew rfl hcell
        have hpost : S.post [] = [] := by simp [End.post]
        rw [hpost]
        refine ⟨by simp, by simp, ?_⟩
        intro c hc hl hr
        rw [hread c hc hl] at hr
        cases hr
    | refused hreg hm =>
        refine h.send (fun hw => hw) ?_ ?_
        · intro m hm
          obtain rfl := List.mem_singleton.mp (End.mem_post hm)
          rfl
        · exact fun _ _ _ => End.mayWrite_none hcell
    | ignored hm =>
        exact h.send (fun hw => hw) (fun _ hm => by cases End.mem_post hm)
          (fun _ hm => by cases End.mem_post hm)
    | _ => simp_all
  · have hmay := hs.mayWrite hcell
    have hms : ∀ m ∈ ms, m = .rst ∧ S' = S ∧ S.registered = false := by
      intro m' hm'
      cases hs with
      | refused hreg hm => exact ⟨List.mem_singleton.mp hm', rfl, hreg⟩
      | _ => cases hm'
    refine h.send hmay ?_ ?_
    · intro m' hm'
      rw [(hms m' (End.mem_post hm')).1]
      rfl
    · intro m' hm' _
      obtain ⟨-, rfl, hreg⟩ := hms m' (End.mem_post hm')
      exact hS.mayWrite_removed hreg

end Steps

end Discipline

/-! ## The invariant of a pipe -/

open Role (opener)

/-- What holds of every pipe at all times. -/
structure Pipe.Sound (cfg : Role → Config) (i : StreamId) (L : Pipe) :
    Prop where
  ends : ∀ r, EndOk (cfg r) i (L.ends r)
  hand : Handshake (opener i) i (L.ends (opener i)) (L.ends (opener i).peer)
    (L.chan (opener i)) (L.chan (opener i).peer)
  order : ∀ r, Discipline (L.ends r) (L.ends r.peer) (L.chan r)

namespace Pipe.Sound

variable {cfg : Role → Config} {i : StreamId} {L L' : Pipe}

/-- Before a side opens the stream there is nothing. -/
theorem unopened (h : Sound cfg i L) {r : Role}
    (hcell : (L.ends r).cell = none) (hown : r.owns i = true) :
    (L.ends r.peer).cell = none ∧ L.chan r = [] ∧ L.chan r.peer = [] := by
  obtain rfl := Role.eq_opener hown
  exact h.hand.fresh hcell

/-- A `SYN` comes first, from the opening side, to a side with no stream. -/
theorem syn_next (h : Sound cfg i L) {r : Role} {rest : List Msg}
    (hchan : L.chan r.peer = .syn :: rest) :
    r.peer = opener i ∧ (L.ends r).cell = none ∧ L.chan r = [] ∧
      ∀ c, (L.ends r.peer).cell = some c → (L.ends r.peer).listening = true →
        c.inner.state.readOpen = true := by
  rcases Role.eq_or_eq_peer (opener i) r with rfl | rfl
  · have hback := h.hand.synBack
    rw [hchan] at hback
    exact absurd (List.mem_cons_self ..) hback
  · rw [Role.peer_peer] at hchan ⊢
    have hw := h.hand.waiting (by rw [hchan]; exact List.mem_cons_self ..)
    exact ⟨rfl, hw⟩

/-- Both streams exist before either has a handle. -/
theorem peer_of_handle (h : Sound cfg i L) {r : Role} {c : Cell}
    (hc : (L.ends r).cell = some c)
    (ho : c.owner = .handle ∨ c.owner = .dropped) :
    (L.ends r.peer).cell ≠ none := by
  rcases Role.eq_or_eq_peer (opener i) r with rfl | rfl
  · exact h.hand.acked c hc (.inr ho)
  · rw [Role.peer_peer]
    intro hnone
    rw [(h.hand.fresh hnone).1] at hc
    cases hc

/-- While the `SYN` is under way nothing comes back. -/
theorem syn_gone (h : Sound cfg i L) {r : Role} {m : Msg} {rest : List Msg}
    (hchan : L.chan r.peer = m :: rest) : Msg.syn ∉ L.chan r := by
  intro hsyn
  rcases Role.eq_or_eq_peer (opener i) r with rfl | rfl
  · have hback := (h.hand.waiting hsyn).2.1
    rw [hchan] at hback
    cases hback
  · exact h.hand.synBack hsyn

/-- Nothing is under way on a stream that was never opened. -/
theorem opened_of_chan (h : Sound cfg i L) {r : Role} (hne : L.chan r ≠ []) :
    (L.ends (opener i)).cell ≠ none := by
  intro hnone
  obtain ⟨-, ho, ha⟩ := h.hand.fresh hnone
  rcases Role.eq_or_eq_peer (opener i) r with rfl | rfl
  · exact hne ho
  · exact hne ha

/-- A side loses messages and its stream stays as it is. -/
theorem replace (h : Sound cfg i L) (r : Role) {E : End} {sent : List Msg}
    (hE : EndOk (cfg r) i E) (hcell : E.cell = (L.ends r).cell)
    (hlisten : E.listening = (L.ends r).listening)
    (hsent : sent.Sublist (L.chan r)) :
    Sound cfg i (L.set r E sent (L.chan r.peer)) := by
  refine ⟨(Role.forall_iff r).mpr ?_, ?_, (Role.forall_iff r).mpr ?_⟩
  · simp only [set_ends_self, set_ends_peer]
    exact ⟨hE, h.ends r.peer⟩
  · rcases Role.eq_or_eq_peer (opener i) r with rfl | rfl
    · simp only [set_ends_self, set_ends_peer, set_chan_self, set_chan_peer]
      exact h.hand.shrink hcell hlisten rfl hsent (List.Sublist.refl _)
    · simp only [set_ends_self, set_peer_ends, set_chan_self, set_peer_chan,
        Role.peer_peer]
      exact h.hand.shrink rfl rfl hcell (List.Sublist.refl _) hsent
  · simp only [set_ends_self, set_ends_peer, set_chan_self, set_chan_peer,
      Role.peer_peer]
    have horder := h.order r.peer
    rw [Role.peer_peer] at horder
    have hmay : E.mayWrite = (L.ends r).mayWrite := by
      unfold End.mayWrite
      rw [hcell]
    constructor
    · have hshrunk := (h.order r).shrink hsent
      refine ⟨hshrunk.order, ?_, ?_⟩ <;> rw [hmay]
      · exact hshrunk.final
      · exact hshrunk.shut
    · refine horder.receive fun c hc hl hr hu => ⟨c, ?_, ?_, hr, hu⟩
      · rw [← hcell]
        exact hc
      · rw [← hlisten]
        exact hl

/-- **Every step keeps the invariant.** -/
theorem step (h : Sound cfg i L) {e : Ev} (hs : PipeStep cfg i e L L') :
    Sound cfg i L' := by
  cases hs with
  | act r hs =>
      refine ⟨(Role.forall_iff r).mpr ?_, ?_, (Role.forall_iff r).mpr ?_⟩
      · simp only [set_ends_self, set_ends_peer]
        exact ⟨(h.ends r).act hs, h.ends r.peer⟩
      · rcases Role.eq_or_eq_peer (opener i) r with rfl | rfl
        · simp only [set_ends_self, set_ends_peer, set_chan_self, set_chan_peer]
          exact h.hand.opener_acts hs
        · simp only [set_ends_self, set_peer_ends, set_chan_self,
            set_peer_chan, Role.peer_peer]
          exact h.hand.acceptor_acts (Role.peer_opener_owns i) hs
      · simp only [set_ends_self, set_ends_peer, set_chan_self, set_chan_peer,
          Role.peer_peer]
        have horder := h.order r.peer
        rw [Role.peer_peer] at horder
        refine ⟨(h.order r).sender_acts hs ?_, horder.receiver_acts hs⟩
        intro hcell hown
        obtain ⟨hpeer, hchan, -⟩ := h.unopened hcell hown
        exact ⟨hpeer, hchan⟩
  | deliver r hchan hs =>
      refine ⟨(Role.forall_iff r).mpr ?_, ?_, (Role.forall_iff r).mpr ?_⟩
      · simp only [set_ends_self, set_ends_peer]
        exact ⟨(h.ends r).deliver hs, h.ends r.peer⟩
      · have hand := h.hand
        rcases Role.eq_or_eq_peer (opener i) r with rfl | rfl
        · simp only [set_ends_self, set_ends_peer, set_chan_self, set_chan_peer]
          rw [hchan] at hand
          exact hand.opener_hears hs
        · simp only [set_ends_self, set_peer_ends, set_chan_self,
            set_peer_chan]
          rw [Role.peer_peer] at hchan
          rw [hchan] at hand
          exact hand.acceptor_hears hs
      · simp only [set_ends_self, set_ends_peer, set_chan_self, set_chan_peer,
          Role.peer_peer]
        have horder := h.order r.peer
        rw [Role.peer_peer, hchan] at horder
        refine ⟨(h.order r).sender_hears hs (h.ends r) ?_, horder.receiver_hears hs⟩
        rintro rfl _
        obtain ⟨-, -, hnil, hread⟩ := h.syn_next hchan
        exact ⟨hnil, hread⟩
  | cut r hclosing hsent =>
      have hE := h.ends r
      refine h.replace r ⟨hE.cell, hE.registered, hE.removed,
        fun _ => hclosing, hE.doneClosing, hE.failClosing⟩ rfl rfl
        hsent.sublist
  | lost r hclosing hsent =>
      have hE := h.ends r
      refine h.replace r ⟨hE.cell, hE.registered, hE.removed,
        hE.outClosing, hE.doneClosing, fun _ => hclosing⟩ rfl rfl hsent

end Pipe.Sound

end NetMux
