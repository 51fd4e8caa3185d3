import NetMux.Link.Integrity

/-!
# Closing a stream without losing anything

When nobody resets a stream, no `open()` times out, no stream is refused and
no session shuts down, an `RST` can still be sent: by a reader that gets a
frame of a stream which its own side has dropped and its closer has removed.
If the sender of that frame still holds the stream, the `RST` takes its
unread bytes away.  When no reader ever does that, a graceful close loses
nothing, and every byte written before the `FIN` can be read, then the end of
the stream.

A step is a whole call or the whole dispatch of a frame.  Where the parts of a
dispatch are steps of their own, as in the runs of `Net`, the closer may take a
stream away after the reader has taken up a frame of it and before the
look-up.  The frame was not stray when it came, and is answered with an `RST`
all the same.
-/

namespace NetMux

open Lib Lib.Run

/-! ## Steps in which nobody resets -/

/-- The events of a run in which nobody resets a stream. -/
def Ev.calm : Ev → Bool
  | .quiet => true
  | .remove _ => true
  | .shutdown _ => true
  | .rst _ => false
  | .reset _ => false

/-- What a calm step keeps of a stream, and what it may send. -/
structure Cell.Calm (c c' : Cell) (ms : List Msg) : Prop where
  reset : c'.inner.state.reset = c.inner.state.reset
  userReset : c'.userReset = c.userReset
  owner : c.owner = .handle ∨ c.owner = .dropped →
    c'.owner = .handle ∨ c'.owner = .dropped
  fin : c'.inner.finSent = true →
    c.inner.finSent = true ∨ (ms = [.fin] ∧ c'.owner = .handle)
  noRst : Msg.rst ∉ ms

theorem Cell.Calm.refl (c : Cell) : Cell.Calm c c [] :=
  ⟨rfl, rfl, fun h => h, .inl, by simp⟩

theorem LocalStep.calm {cfg : Config} {i : StreamId} {r : Role} {E E' : End}
    {e : Ev} {ms : List Msg} (h : LocalStep cfg i r E e E' ms)
    (he : e.calm = true) {c : Cell} (hc : E.cell = some c) :
    ∃ c', E'.cell = some c' ∧ Cell.Calm c c' ms := by
  cases h with
  | opened hown hcell hout =>
      rw [hcell] at hc
      cases hc
  | connected hcell howner hack =>
      obtain rfl := Option.some.inj (hcell.symm.trans hc)
      exact ⟨_, rfl, rfl, rfl, fun _ => .inl rfl, .inl, by simp⟩
  | abandoned keep hcell howner =>
      obtain rfl := Option.some.inj (hcell.symm.trans hc)
      refine ⟨_, rfl, rfl, rfl, fun ho => ?_, .inl, by simp⟩
      rcases howner with howner | howner <;> simp [howner] at ho
  | timedOut hcell howner => cases he
  | accepted hcell howner hout =>
      obtain rfl := Option.some.inj (hcell.symm.trans hc)
      exact ⟨_, rfl, rfl, rfl, fun _ => .inl rfl, .inl, by simp⟩
  | read remaining hcell howner =>
      obtain rfl := Option.some.inj (hcell.symm.trans hc)
      refine ⟨_, rfl, by rw [Cell.read_state], rfl, id, fun hfin => ?_, ?_⟩
      · rw [Cell.read_finSent] at hfin
        exact .inl hfin
      · intro hmem
        obtain ⟨_, hm⟩ := Cell.readMsgs_credit _ _ hmem
        cases hm
  | wrote buf hcell howner hopen hout =>
      obtain rfl := Option.some.inj (hcell.symm.trans hc)
      exact ⟨_, rfl, rfl, rfl, id, .inl, by simp⟩
  | writeFailed hcell howner hout =>
      obtain rfl := Option.some.inj (hcell.symm.trans hc)
      exact ⟨_, rfl, rfl, rfl, id, .inl, by simp⟩
  | finished hcell howner hopen =>
      obtain rfl := Option.some.inj (hcell.symm.trans hc)
      exact ⟨_, rfl, rfl, rfl, id, fun _ => .inr ⟨rfl, howner⟩, by simp⟩
  | dropped hcell howner hshut =>
      obtain rfl := Option.some.inj (hcell.symm.trans hc)
      exact ⟨_, rfl, rfl, rfl, fun _ => .inr rfl, .inl, by simp⟩
  | reset hcell howner => cases he
  | faulted hcell hdone => cases he
  | shutdown hopen =>
      by_cases hreg : E.registered = true
      · simp only [hreg, if_true, hc]
        exact ⟨_, rfl, rfl, rfl, id, .inl, by simp⟩
      · simp only [hreg, hc]
        exact ⟨_, rfl, .refl c⟩
  | readerDone hclosing => exact ⟨c, hc, .refl c⟩
  | removed hcell hrel => exact ⟨c, hc, .refl c⟩

/-- What a message leaves alone; only an `RST` resets. -/
theorem DeliverStep.calm {cfg : Config} {i : StreamId} {r : Role}
    {E E' : End} {m : Msg} {e : Ev} {ms : List Msg}
    (h : DeliverStep cfg i r E m e E' ms) {c : Cell} (hc : E.cell = some c) :
    ∃ c', E'.cell = some c' ∧
      (c'.inner.state.reset = c.inner.state.reset ∨ m = .rst) ∧
      c'.userReset = c.userReset ∧ c'.owner = c.owner ∧
      c'.inner.finSent = c.inner.finSent := by
  cases h with
  | created hcell hdone =>
      rw [hcell] at hc
      cases hc
  | acked hcell hl =>
      obtain rfl := Option.some.inj (hcell.symm.trans hc)
      exact ⟨_, rfl, .inl rfl, rfl, rfl, rfl⟩
  | data hcell hl hopen =>
      obtain rfl := Option.some.inj (hcell.symm.trans hc)
      refine ⟨_, rfl, .inl ?_, rfl, rfl, ?_⟩
      · rw [StreamInner.pushData_eq]
      · rw [StreamInner.pushData_eq]
  | fin hcell hl =>
      obtain rfl := Option.some.inj (hcell.symm.trans hc)
      exact ⟨_, rfl, .inl rfl, rfl, rfl, rfl⟩
  | rst hcell hl =>
      obtain rfl := Option.some.inj (hcell.symm.trans hc)
      exact ⟨_, rfl, .inr rfl, rfl, rfl, rfl⟩
  | credit hcell hl =>
      obtain rfl := Option.some.inj (hcell.symm.trans hc)
      exact ⟨_, rfl, .inl rfl, rfl, rfl, rfl⟩
  | refused hreg hm => exact ⟨c, hc, .inl rfl, rfl, rfl, rfl⟩
  | ignored hm => exact ⟨c, hc, .inl rfl, rfl, rfl, rfl⟩

/-! ## The invariant -/

/-- One side of a pipe on which nobody resets. -/
structure Unreset (E : End) : Prop where
  reset : ∀ c, E.cell = some c → c.inner.state.reset = true → c.live = false
  userReset : ∀ c, E.cell = some c → c.userReset = false
  finOwner : ∀ c, E.cell = some c → c.inner.finSent = true →
    c.owner = .handle ∨ c.owner = .dropped

/-- One direction of such a pipe.  An `RST` is only on its way to a stream
that nobody holds, and a `FIN` that was sent is on its way or has arrived. -/
structure Unharmed (S R : End) (fwd : List Msg) : Prop where
  rst : Msg.rst ∈ fwd →
    Msg.syn ∉ fwd ∧ ∀ c, R.cell = some c → c.live = false
  fin : S.closing = false → R.closing = false → ∀ d, S.cell = some d →
    d.inner.finSent = true → Msg.fin ∈ fwd ∨
      ∀ c, R.cell = some c → c.live = true → c.inner.state.readOpen = false

/-- A pipe on which nobody resets. -/
structure Pipe.Gentle (L : Pipe) : Prop where
  ends : ∀ r, Unreset (L.ends r)
  ways : ∀ r, Unharmed (L.ends r) (L.ends r.peer) (L.chan r)

section Ends

variable {cfg : Config} {i : StreamId} {r : Role} {E E' : End} {e : Ev}
  {m : Msg} {ms : List Msg}

theorem unreset_new (origin : Origin) {owner : Owner}
    (hE : E.cell = some (Cell.new (StreamInner.new i origin cfg) owner)) :
    Unreset E := by
  refine ⟨fun c hc hreset => ?_, fun c hc => ?_, fun c hc hfin => ?_⟩
  · obtain rfl := Option.some.inj (hE.symm.trans hc)
    cases hreset
  · obtain rfl := Option.some.inj (hE.symm.trans hc)
    rfl
  · obtain rfl := Option.some.inj (hE.symm.trans hc)
    cases hfin

theorem unreset_none (hE : E.cell = none) : Unreset E := by
  refine ⟨fun c hc => ?_, fun c hc => ?_, fun c hc => ?_⟩ <;>
    rw [hE] at hc <;> cases hc

theorem Unreset.act (h : Unreset E) (hs : LocalStep cfg i r E e E' ms)
    (he : e.calm = true) : Unreset E' := by
  cases hcell : E.cell with
  | none =>
      rcases hs.none_silent hcell with ⟨hnone, -⟩ | ⟨-, -, -, rfl⟩
      · exact unreset_none hnone
      · exact unreset_new .locally rfl
  | some c =>
      obtain ⟨c', hc', hcalm⟩ := hs.calm he hcell
      obtain ⟨d, hd, hlater⟩ := hs.later hcell
      obtain rfl := Option.some.inj (hc'.symm.trans hd)
      refine ⟨fun d hd hreset => ?_, fun d hd => ?_, fun d hd hfin => ?_⟩
      · obtain rfl := Option.some.inj (hc'.symm.trans hd)
        rw [hcalm.reset] at hreset
        exact hlater.dead (h.reset c hcell hreset)
      · obtain rfl := Option.some.inj (hc'.symm.trans hd)
        exact hcalm.userReset.trans (h.userReset c hcell)
      · obtain rfl := Option.some.inj (hc'.symm.trans hd)
        rcases hcalm.fin hfin with hfin | ⟨-, howner⟩
        · exact hcalm.owner (h.finOwner c hcell hfin)
        · exact .inl howner

theorem Unreset.deliver (h : Unreset E) (hs : DeliverStep cfg i r E m e E' ms)
    (hrst : m = .rst → ∀ c, E.cell = some c → c.live = false) :
    Unreset E' := by
  cases hcell : E.cell with
  | none =>
      cases hs with
      | created _ _ => exact unreset_new .remotely rfl
      | refused _ _ => exact h
      | ignored _ => exact h
      | _ => simp_all
  | some c =>
      obtain ⟨c', hc', hreset, huser, howner, hfin⟩ := hs.calm hcell
      have hlive : c'.live = c.live := by simp [Cell.live, Owner.live, howner]
      refine ⟨fun d hd hr => ?_, fun d hd => ?_, fun d hd hf => ?_⟩
      · obtain rfl := Option.some.inj (hc'.symm.trans hd)
        rw [hlive]
        rcases hreset with hreset | hm
        · exact h.reset c hcell (hreset.symm.trans hr)
        · exact hrst hm c hcell
      · obtain rfl := Option.some.inj (hc'.symm.trans hd)
        exact huser.trans (h.userReset c hcell)
      · obtain rfl := Option.some.inj (hc'.symm.trans hd)
        rw [howner]
        exact h.finOwner c hcell (hfin.symm.trans hf)

end Ends

section Ways

variable {cfg : Config} {i : StreamId} {r : Role} {S R S' R' : End} {e : Ev}
  {m : Msg} {fwd rest ms : List Msg}

/-- The sending end acts. -/
theorem Unharmed.sender_acts (h : Unharmed S R fwd)
    (hs : LocalStep cfg i r S e S' ms) (he : e.calm = true)
    (hS : EndOk cfg i S)
    (hfresh : S.cell = none → r.owns i = true → fwd = []) :
    Unharmed S' R (fwd ++ S.post ms) := by
  obtain ⟨hout, -, hclosing⟩ := hs.flags
  cases hcell : S.cell with
  | none =>
      rcases hs.none_silent hcell with ⟨hnone, rfl⟩ | ⟨hown, -, rfl, rfl⟩
      · have hpost : S.post [] = [] := by simp [End.post]
        rw [hpost, List.append_nil]
        refine ⟨h.rst, fun _ _ d hd => ?_⟩
        rw [hnone] at hd
        cases hd
      · rw [hfresh hcell hown, List.nil_append]
        refine ⟨fun hmem => ?_, fun _ _ d hd hfin => ?_⟩
        · have hsyn := End.mem_post hmem
          simp at hsyn
        · obtain rfl := Option.some.inj hd
          cases hfin
  | some c =>
      obtain ⟨c', hc', hcalm⟩ := hs.calm he hcell
      constructor
      · intro hmem
        rcases List.mem_append.mp hmem with hmem | hmem
        · obtain ⟨hsyn, hdead⟩ := h.rst hmem
          refine ⟨fun hmem => ?_, hdead⟩
          rcases List.mem_append.mp hmem with hmem | hmem
          · exact hsyn hmem
          · exact hs.syn_only_opened (by simp [hcell]) (End.mem_post hmem)
        · exact absurd (End.mem_post hmem) hcalm.noRst
      · intro hcl hcl' d hd hfin
        obtain rfl := Option.some.inj (hc'.symm.trans hd)
        rcases hcalm.fin hfin with hfin | ⟨rfl, -⟩
        · exact (h.fin (hclosing hcl) hcl' c hcell hfin).imp
            (List.mem_append_left _) id
        · left
          have hopen : S.outClosed = false := by
            by_contra ho
            rw [Bool.not_eq_false] at ho
            have hcl := hclosing hcl
            rw [hS.outClosing ho] at hcl
            cases hcl
          simp [End.post, hopen]

/-- The receiving end acts. -/
theorem Unharmed.receiver_acts (h : Unharmed S R fwd)
    (hs : LocalStep cfg i r R e R' ms)
    (hfresh : R.cell = none → r.owns i = true → S.cell = none ∧ fwd = []) :
    Unharmed S R' fwd := by
  obtain ⟨-, -, hclosing⟩ := hs.flags
  cases hcell : R.cell with
  | none =>
      rcases hs.none_silent hcell with ⟨hnone, -⟩ | ⟨hown, -⟩
      · refine ⟨fun hmem => ⟨(h.rst hmem).1, fun c hc => ?_⟩,
          fun _ _ _ _ _ => .inr fun c hc => ?_⟩ <;>
          rw [hnone] at hc <;> cases hc
      · obtain ⟨hnone, rfl⟩ := hfresh hcell hown
        refine ⟨fun hmem => (by cases hmem), fun _ _ d hd => ?_⟩
        rw [hnone] at hd
        cases hd
  | some c =>
      obtain ⟨c', hc', hlater⟩ := hs.later hcell
      constructor
      · intro hmem
        obtain ⟨hsyn, hdead⟩ := h.rst hmem
        refine ⟨hsyn, fun d hd => ?_⟩
        obtain rfl := Option.some.inj (hc'.symm.trans hd)
        exact hlater.dead (hdead c hcell)
      · intro hcl hcl' d hd hfin
        refine (h.fin hcl (hclosing hcl') d hd hfin).imp id fun hread => ?_
        intro d' hd' hlive
        obtain rfl := Option.some.inj (hc'.symm.trans hd')
        exact hlater.readShut (hread c hcell (hlater.live hlive))

/-- A `FIN` that a held stream listens for has arrived. -/
theorem fin_arrives (hs : DeliverStep cfg i r R .fin e R' ms)
    (hR : EndOk cfg i R) (hU : Unreset R) (hcl : R.closing = false) {c : Cell}
    (hc : R'.cell = some c) (hlive : c.live = true) :
    c.inner.state.readOpen = false := by
  cases hs with
  | fin hcell hl =>
      obtain rfl := Option.some.inj hc
      rfl
  | refused hreg hm =>
      rcases hR.removed c hc hreg with hrel | ⟨hclosing, -⟩
      · simp only [Cell.released, hlive, Bool.not_true, Bool.or_false] at hrel
        rw [hU.reset c hc hrel] at hlive
        cases hlive
      · rw [hcl] at hclosing
        cases hclosing
  | ignored hm =>
      rcases hm with ⟨-, hm⟩ | hdone
      · cases hm
      · rw [hR.doneClosing hdone] at hcl
        cases hcl

/-- A message reaches the receiving end. -/
theorem Unharmed.receiver_hears (h : Unharmed S R (m :: rest))
    (hs : DeliverStep cfg i r R m e R' ms) (hR : EndOk cfg i R)
    (hU : Unreset R) (hS : Unreset S)
    (hpeer : ∀ d, S.cell = some d → d.owner = .handle ∨ d.owner = .dropped →
      R.cell ≠ none) :
    Unharmed S R' rest := by
  obtain ⟨-, -, hclosing, -⟩ := hs.flags
  constructor
  · intro hmem
    obtain ⟨hsyn, hdead⟩ := h.rst (List.mem_cons_of_mem _ hmem)
    refine ⟨fun hmem => hsyn (List.mem_cons_of_mem _ hmem), fun c' hc' => ?_⟩
    cases hcell : R.cell with
    | none =>
        cases hs with
        | created _ _ => exact absurd (List.mem_cons_self ..) hsyn
        | refused _ _ => exact hdead c' hc'
        | ignored _ => exact hdead c' hc'
        | _ => simp_all
    | some c =>
        obtain ⟨d, hd, hlater⟩ := hs.later hcell
        obtain rfl := Option.some.inj (hc'.symm.trans hd)
        exact hlater.dead (hdead c hcell)
  · intro hcl hcl' d hd hfin
    rw [hclosing] at hcl'
    have hcell := hpeer d hd (hS.finOwner d hd hfin)
    rcases h.fin hcl hcl' d hd hfin with hmem | hread
    · rcases List.mem_cons.mp hmem with rfl | hmem
      · exact .inr fun c hc hlive => fin_arrives hs hR hU hcl' hc hlive
      · exact .inl hmem
    · right
      intro c' hc' hlive
      obtain ⟨c, hc⟩ := Option.ne_none_iff_exists'.mp hcell
      obtain ⟨d, hd, hlater⟩ := hs.later hc
      obtain rfl := Option.some.inj (hc'.symm.trans hd)
      exact hlater.readShut (hread c hc (hlater.live hlive))

/-- A message reaches the sending end. -/
theorem Unharmed.sender_hears (h : Unharmed S R fwd)
    (hs : DeliverStep cfg i r S m e S' ms)
    (hrst : Msg.rst ∈ ms →
      Msg.syn ∉ fwd ∧ ∀ c, R.cell = some c → c.live = false) :
    Unharmed S' R (fwd ++ S.post ms) := by
  obtain ⟨-, -, hclosing, -⟩ := hs.flags
  have hsyn : Msg.syn ∉ S.post ms := by
    intro hmem
    have hmem := End.mem_post hmem
    cases hs <;> simp at hmem
  have hdead : Msg.rst ∈ fwd ++ S.post ms →
      Msg.syn ∉ fwd ∧ ∀ c, R.cell = some c → c.live = false := by
    intro hmem
    rcases List.mem_append.mp hmem with hmem | hmem
    · exact h.rst hmem
    · exact hrst (End.mem_post hmem)
  constructor
  · intro hmem
    refine ⟨fun hmem' => ?_, (hdead hmem).2⟩
    rcases List.mem_append.mp hmem' with hmem' | hmem'
    · exact (hdead hmem).1 hmem'
    · exact hsyn hmem'
  · intro hcl hcl' d' hd' hfin
    rw [hclosing] at hcl
    cases hcell : S.cell with
    | none =>
        cases hs with
        | created _ _ =>
            obtain rfl := Option.some.inj hd'
            cases hfin
        | refused _ _ => simp_all
        | ignored _ => simp_all
        | _ => simp_all
    | some d =>
        obtain ⟨c', hc', -, -, -, hsame⟩ := hs.calm hcell
        obtain rfl := Option.some.inj (hc'.symm.trans hd')
        exact (h.fin hcl hcl' d hcell (hsame.symm.trans hfin)).imp
          (List.mem_append_left _) id

/-- While a session closes its messages may get lost. -/
theorem Unharmed.lose (h : Unharmed S R fwd) (hcl : S'.closing = true)
    (hsub : rest.Sublist fwd) :
    Unharmed S' R rest where
  rst := fun hmem =>
    ⟨fun hsyn => (h.rst (hsub.subset hmem)).1 (hsub.subset hsyn),
      (h.rst (hsub.subset hmem)).2⟩
  fin := fun hopen => by
    rw [hcl] at hopen
    cases hopen

end Ways

/-- An event that leaves held streams alone: either nobody resets, or a side
answers for a stream that it no longer has and the other side no longer
holds. -/
def Ev.Harmless (e : Ev) (L : Pipe) : Prop :=
  e.calm = true ∨ ∃ r, e = .rst r ∧ (L.ends r).registered = false ∧
    (L.ends r).closing = false ∧
    ∀ c, (L.ends r.peer).cell = some c → c.live = false

namespace Pipe.Gentle

variable {cfg : Role → Config} {i : StreamId} {L L' : Pipe} {e : Ev}

/-- Seen from the receiving side. -/
theorem ways_peer (h : Gentle L) (r : Role) :
    Unharmed (L.ends r.peer) (L.ends r) (L.chan r.peer) := by
  simpa only [Role.peer_peer] using h.ways r.peer

/-- A side's own step that is harmless is calm: a side that waits for its
`open()` has its stream registered. -/
theorem calm_of_act (h : Gentle L) (hsound : Sound cfg i L) {r : Role}
    {E : End} {ms : List Msg} (hs : LocalStep (cfg r) i r (L.ends r) e E ms)
    (hok : e.Harmless L) : e.calm = true := by
  rcases hok with hcalm | ⟨r', rfl, hreg, hcl, -⟩
  · exact hcalm
  · cases hs with
    | timedOut hcell howner =>
        have hlive := Cell.live_opening howner
        rcases (hsound.ends r).removed _ hcell hreg with hrel | ⟨hclosing, -⟩
        · simp only [Cell.released, hlive, Bool.not_true, Bool.or_false]
            at hrel
          rw [(h.ends r).reset _ hcell hrel] at hlive
          cases hlive
        · rw [hcl] at hclosing
          cases hclosing

theorem act (h : Gentle L) (hsound : Sound cfg i L) {r : Role} {E : End}
    {ms : List Msg} (hs : LocalStep (cfg r) i r (L.ends r) e E ms)
    (he : e.calm = true) :
    Gentle (L.set r E (L.chan r ++ (L.ends r).post ms) (L.chan r.peer)) := by
  have hfresh := fun hnone hown => hsound.unopened (r := r) hnone hown
  refine ⟨(Role.forall_iff r).mpr ?_, (Role.forall_iff r).mpr ?_⟩
  · simp only [set_ends_self, set_ends_peer]
    exact ⟨(h.ends r).act hs he, h.ends r.peer⟩
  · simp only [set_ends_self, set_ends_peer, set_chan_self, set_chan_peer,
      Role.peer_peer]
    exact ⟨(h.ways r).sender_acts hs he (hsound.ends r)
        fun hnone hown => (hfresh hnone hown).2.1,
      (h.ways_peer r).receiver_acts hs fun hnone hown =>
        ⟨(hfresh hnone hown).1, (hfresh hnone hown).2.2⟩⟩

theorem deliver (h : Gentle L) (hsound : Sound cfg i L) {r : Role} {E : End}
    {m : Msg} {rest ms : List Msg} (hchan : L.chan r.peer = m :: rest)
    (hs : DeliverStep (cfg r) i r (L.ends r) m e E ms)
    (hok : e.Harmless L) :
    Gentle (L.set r E (L.chan r ++ (L.ends r).post ms) rest) := by
  have hback := h.ways_peer r
  rw [hchan] at hback
  have hpeer : ∀ d, (L.ends r.peer).cell = some d →
      d.owner = .handle ∨ d.owner = .dropped → (L.ends r).cell ≠ none := by
    intro d hd ho
    simpa only [Role.peer_peer] using hsound.peer_of_handle hd ho
  refine ⟨(Role.forall_iff r).mpr ?_, (Role.forall_iff r).mpr ?_⟩
  · simp only [set_ends_self, set_ends_peer]
    refine ⟨(h.ends r).deliver hs ?_, h.ends r.peer⟩
    rintro rfl
    exact (hback.rst (List.mem_cons_self ..)).2
  · simp only [set_ends_self, set_ends_peer, set_chan_self, set_chan_peer,
      Role.peer_peer]
    refine ⟨(h.ways r).sender_hears hs fun hrst => ?_,
      hback.receiver_hears hs (hsound.ends r) (h.ends r) (h.ends r.peer) hpeer⟩
    -- only a refusal sends an `RST`
    refine ⟨hsound.syn_gone hchan, ?_⟩
    cases hs with
    | refused hreg hm =>
        rcases hok with hcalm | ⟨r', heq, -, -, hdead⟩
        · cases hcalm
        · cases heq
          exact hdead
    | _ => cases hrst

/-- **Harmless steps keep a gentle pipe gentle.** -/
theorem step (h : Gentle L) (hsound : Sound cfg i L)
    (hs : PipeStep cfg i e L L') (hok : e.Harmless L) : Gentle L' := by
  cases hs with
  | act r hs => exact h.act hsound hs (h.calm_of_act hsound hs hok)
  | deliver r hchan hs => exact h.deliver hsound hchan hs hok
  | cut r hclosing hsent =>
      refine ⟨(Role.forall_iff r).mpr ?_, (Role.forall_iff r).mpr ?_⟩
      · simp only [set_ends_self, set_ends_peer]
        exact ⟨{ h.ends r with }, h.ends r.peer⟩
      · simp only [set_ends_self, set_ends_peer, set_chan_self, set_chan_peer,
          Role.peer_peer]
        exact ⟨(h.ways r).lose hclosing hsent.sublist,
          { h.ways_peer r with }⟩
  | lost r hclosing hsent =>
      refine ⟨(Role.forall_iff r).mpr ?_, (Role.forall_iff r).mpr ?_⟩
      · simp only [set_ends_self, set_ends_peer]
        exact ⟨{ h.ends r with }, h.ends r.peer⟩
      · simp only [set_ends_self, set_ends_peer, set_chan_self, set_chan_peer,
          Role.peer_peer]
        exact ⟨(h.ways r).lose hclosing hsent, { h.ways_peer r with }⟩

end Pipe.Gentle

/-! ## Graceful runs -/

namespace System

variable {cfg : Role → Config} {S : System} {r : Role}

/-- The action meets the stream limit of its side. -/
def limitReached (S : System) (a : Action) : Bool :=
  let s := S.ends a.role
  match a.act, S.wire a.role.peer with
  | .openStart, _ => decide (s.config.maxStreams ≤ s.registry.len)
  | .readerNext, .data _ flags _ :: _ =>
      flags.contains Flags.syn && decide (s.config.maxStreams ≤ s.registry.len)
  | _, _ => false

/-- Nobody calls `Stream::reset`, no `open()` times out, no stream limit is
met and no session begins to shut down. -/
def graceful (S : System) (a : Action) : Bool :=
  (match a.act with
    | .reset _ => false
    | .openTimeout _ => false
    | _ => true) &&
    !S.limitReached a && !((S.step a).ends .client).isClosing &&
      !((S.step a).ends .server).isClosing

/-- The action dispatches a frame of a stream that its side does not know, and
that the frame's sender still holds. -/
def strayFrame (S : System) (a : Action) : Bool :=
  let s := S.ends a.role
  match a.act, S.wire a.role.peer with
  | .readerNext, .data id flags _ :: _ =>
      !s.readerDone && !flags.contains Flags.syn &&
        !flags.contains Flags.ack && !flags.contains Flags.rst &&
        (s.find id).isNone &&
        (S.ends a.role.peer).streams.any fun c => c.id == id && c.live
  | _, _ => false

theorem graceful_closing {a : Action} (h : S.graceful a = true) (r : Role) :
    ((S.step a).ends r).isClosing = false := by
  simp only [graceful, Bool.and_eq_true, Bool.not_eq_true'] at h
  cases r with
  | client => exact h.1.2
  | server => exact h.2

theorem graceful_limit {a : Action} (h : S.graceful a = true) :
    S.limitReached a = false := by
  simp only [graceful, Bool.and_eq_true, Bool.not_eq_true'] at h
  exact h.1.1.2

/-- The sender of a frame that is not stray does not hold the stream. -/
theorem dead_of_not_stray {a : Action} {i : StreamId} {flags : Flags}
    {p : Bytes} {rest : List Frame} (hact : a.act = .readerNext)
    (hdone : (S.ends a.role).readerDone = false)
    (hwire : S.wire a.role.peer = .data i flags p :: rest)
    (hflags : (!flags.contains Flags.syn && !flags.contains Flags.ack &&
      !flags.contains Flags.rst) = true)
    (hf : (S.ends a.role).find i = none) (hstray : S.strayFrame a = false)
    {c : Cell} (hc : c ∈ (S.ends a.role.peer).streams) (hid : c.id = i) :
    c.live = false := by
  by_contra hlive
  rw [Bool.not_eq_false] at hlive
  have hany : ((S.ends a.role.peer).streams.any
      fun c => c.id == i && c.live) = true :=
    List.any_eq_true.mpr ⟨c, hc, by simp [hid, hlive]⟩
  simp only [Bool.and_eq_true] at hflags
  simp [strayFrame, hact, hwire, hdone, hflags, hf, hany] at hstray

/-- **Only a stray frame is answered with an `RST` that harms.** -/
theorem Good.harmless (h : Good cfg S) {a : Action}
    (hopen : ∀ r, (S.ends r).isClosing = false)
    (hgrace : S.graceful a = true) (hstray : S.strayFrame a = false)
    {i : StreamId} {e : Ev} {L : Pipe} (hp : S.Permits a i e L) :
    e.Harmless L := by
  cases hp with
  | quiet => exact .inl rfl
  | removed => exact .inl rfl
  | shutdown => exact .inl rfl
  | timedOut _ hact => simp [graceful, hact] at hgrace
  | reset _ hact => simp [graceful, hact] at hgrace
  | faulted _ _ hclosing =>
      rw [graceful_closing hgrace] at hclosing
      cases hclosing
  | refused hact href =>
      obtain ⟨hdone, m, rest, hwire, hm, hf, hfull⟩ := href
      refine .inr ⟨_, rfl, (h.wf _).find_none hf, hopen _, fun c hc => ?_⟩
      obtain ⟨hmem, hid⟩ := Keyed.lookup_some hc
      have hlimit := graceful_limit hgrace
      simp only [limitReached, hact, hwire] at hlimit
      cases m with
      | syn =>
          rcases hfull rfl with hgone | hfull
          · have hcl := (h.wf a.role).goneClosing hgone
            rw [hopen] at hcl
            cases hcl
          · simp [Msg.frame, Frame.syn, hfull] at hlimit
            cases hlimit
      | data p => exact dead_of_not_stray hact hdone hwire rfl hf hstray hmem hid
      | fin => exact dead_of_not_stray hact hdone hwire rfl hf hstray hmem hid
      | _ => cases hm

/-- What holds along graceful runs without stray frames. -/
structure Serene (cfg : Role → Config) (S : System) : Prop where
  good : Good cfg S
  running : ∀ r, (S.ends r).isClosing = false
  gentle : ∀ i, (S.pipe i).Gentle

theorem serene_init (cfg : Role → Config) : Serene cfg (init cfg) where
  good := good_init cfg
  running := fun _ => rfl
  gentle := fun i => by
    rw [pipe_init]
    refine ⟨fun _ => unreset_none rfl, fun _ => ⟨fun hm => ?_, fun _ _ d hd => ?_⟩⟩
    · exact absurd hm List.not_mem_nil
    · cases hd

theorem Serene.step (h : Serene cfg S) {a : Action}
    (hgrace : S.graceful a = true) (hstray : S.strayFrame a = false) :
    Serene cfg (S.step a) where
  good := (h.good.turn a).good h.good
  running := graceful_closing hgrace
  gentle := fun i => by
    -- along the path of one action the pipe stays sound and gentle
    refine (((h.good.turn a).moves i).invariant
      (I := fun L => Pipe.Sound cfg i L ∧ L.Gentle) ?_
      ⟨(h.good.pipes i).sound, h.gentle i⟩).2
    rintro e L L' ⟨hsound, hgentle⟩ hp hs
    exact ⟨hsound.step hs, hgentle.step hsound hs
      (h.good.harmless h.running hgrace hstray hp)⟩

theorem serene_after (cfg : Role → Config) {as : List Action}
    (hrun : Along System.step
      (fun S a => S.graceful a = true ∧ S.strayFrame a = false)
      (init cfg) as) : Serene cfg (after cfg as) :=
  run_invariant System.step (fun _ _ h ha => h.step ha.1 ha.2) as _
    (serene_init cfg) hrun

namespace Serene

variable {c d : Cell}

/-- A held stream is not reset. -/
theorem held (h : Serene cfg S) (hc : c ∈ (S.ends r).streams)
    (hlive : c.live = true) : c.Held := by
  refine ⟨hlive, ?_⟩
  by_contra hreset
  rw [Bool.not_eq_false] at hreset
  have hdead := ((h.gentle c.id).ends r).reset c (h.good.cell_of_mem hc) hreset
  rw [hlive] at hdead
  cases hdead

/-- A `FIN` that was sent is under way or has arrived. -/
theorem fin_sent (h : Serene cfg S) (hc : c ∈ (S.ends r).streams)
    (hlive : c.live = true) (hd : d ∈ (S.ends r.peer).streams)
    (hid : d.id = c.id) (hfin : d.inner.finSent = true) :
    c.inner.state.readOpen = false ∨ Frame.fin c.id ∈ S.underWay r.peer := by
  have hcell := h.good.cell_of_mem hd
  rw [hid] at hcell
  rcases ((h.gentle c.id).ways_peer r).fin (h.running r.peer) (h.running r) d
    hcell hfin with hmem | hshut
  · exact .inr (h.good.frame_mem hmem)
  · exact .inl (hshut c (h.good.cell_of_mem hc) hlive)

/-- Behind a closed read half nothing more comes. -/
theorem all_arrived (h : Serene cfg S) (hc : c ∈ (S.ends r).streams)
    (hlive : c.live = true) (hshut : c.inner.state.readOpen = false) :
    S.dataUnderWay r.peer c.id = [] := by
  have hcell := h.good.cell_of_mem hc
  have hl := h.good.listening hc (h.held hc hlive) (h.running r)
  have horder := (h.good.pipes c.id).sound.order r.peer
  rw [Role.peer_peer] at horder
  have hnone := (horder.shut c hcell hl hshut
    (((h.gentle c.id).ends r).userReset c hcell)).2
  rw [← h.good.payloads_chan]
  exact List.flatMap_eq_nil_iff.mpr hnone

end Serene

end System

/-! ## The reader's view -/

namespace StreamInner

/-- Neither `poll_read` nor `poll_write` fails with `ConnectionReset`. -/
def NeverReset (s : StreamInner) : Prop :=
  (∀ n e, (s.pollRead n).1 = .ready (.error e) → e.kind ≠ .connectionReset) ∧
    ∀ outOpen buf e, (s.pollWrite outOpen buf).1 = .ready (.error e) →
      e.kind ≠ .connectionReset

theorem neverReset {s : StreamInner} (h : s.state.reset = false) :
    s.NeverReset := by
  constructor
  · intro n e he
    rw [pollRead_eq, h] at he
    split at he
    · cases he
    · simp only [Bool.false_eq_true, if_false] at he
      split at he
      · split at he <;> cases he
      · cases he
  · intro outOpen buf e he
    rw [pollWrite_eq, h] at he
    simp only [Bool.false_eq_true, if_false] at he
    repeat' split at he
    all_goals cases he
    all_goals exact fun hkind => by cases hkind

/-- Once the read half is closed every read returns the front of what is
left, and the end of the stream when nothing is. -/
theorem pollRead_shut {s : StreamInner} (h : s.state.reset = false)
    (hshut : s.state.readOpen = false) (n : Nat) :
    (s.pollRead n).1 = .ready (.ok (s.recv.contents.take n)) := by
  rw [pollRead_eq, h, hshut]
  split
  · rename_i hn
    rw [hn, List.take_zero]
  · simp only [Bool.false_eq_true, if_false]
    split
    · rename_i hnil
      rw [hnil, List.take_nil]
    · rfl

end StreamInner

namespace System

/-- **A graceful close loses nothing.**  Take a run in which nobody calls
`Stream::reset`, no `open()` times out, no stream limit is met and no session
shuts down, and in which no reader gets a frame of a stream that it does not
know and the frame's sender still holds.  A stream that is still held is never
found reset.  Every byte the peer wrote to it was read, is buffered or is
under way; the peer's `FIN` has closed the read half or is under way; and once
the read half is closed all bytes are there, and every read returns the front
of what is left and then the end of the stream. -/
theorem graceful_close (cfg : Role → Config) (as : List Action)
    (hrun : Along step
      (fun S a => S.graceful a = true ∧ S.strayFrame a = false)
      (init cfg) as) (r : Role) :
    ∀ c ∈ ((after cfg as).ends r).streams, c.live = true →
      c.inner.state.reset = false ∧ c.inner.NeverReset ∧
      ∀ d ∈ ((after cfg as).ends r.peer).streams, d.id = c.id →
        c.readLog ++ c.inner.recv.contents ++
            (after cfg as).dataUnderWay r.peer c.id = d.writeLog ∧
        (d.inner.finSent = true → c.inner.state.readOpen = false ∨
          Frame.fin c.id ∈ (after cfg as).underWay r.peer) ∧
        (c.inner.state.readOpen = false →
          c.readLog ++ c.inner.recv.contents = d.writeLog ∧
          ∀ n, (c.inner.pollRead n).1 =
            .ready (.ok (c.inner.recv.contents.take n))) := by
  have h := serene_after cfg hrun
  intro c hc hlive
  have hheld := h.held hc hlive
  refine ⟨hheld.2, StreamInner.neverReset hheld.2, fun d hd hid => ?_⟩
  have hfail : ((after cfg as).ends r.peer).encodeFailed = false := by
    by_contra hfail
    rw [Bool.not_eq_false] at hfail
    have hcl := ((h.good.pipes c.id).sound.ends r.peer).failClosing hfail
    exact Bool.false_ne_true ((h.running r.peer).symm.trans hcl)
  have hall : c.readLog ++ c.inner.recv.contents ++
      (after cfg as).dataUnderWay r.peer c.id = d.writeLog := by
    refine h.good.complete (h.running r.peer) ?_ hfail ?_ hd hid hheld
    · rw [Role.peer_peer]
      exact h.running r
    · rw [Role.peer_peer]
      exact hc
  refine ⟨hall, h.fin_sent hc hlive hd hid, fun hshut => ⟨?_, ?_⟩⟩
  · rw [h.all_arrived hc hlive hshut, List.append_nil] at hall
    exact hall
  · exact StreamInner.pollRead_shut hheld.2 hshut

/-- The server writes a byte and drops its handle; both its `Data` and its
`FIN` reach the client, which has not read yet. -/
def dropRun : List Action :=
  [⟨.client, .openStart⟩, ⟨.client, .writerNext⟩, ⟨.server, .readerNext⟩,
    ⟨.server, .accept⟩, ⟨.server, .writerNext⟩, ⟨.client, .readerNext⟩,
    ⟨.client, .openPoll 0⟩, ⟨.server, .pollWrite 0 [7]⟩, ⟨.server, .drop 0⟩,
    ⟨.server, .writerNext⟩, ⟨.server, .writerNext⟩, ⟨.client, .readerNext⟩,
    ⟨.client, .readerNext⟩]

/-- The client closes its own half: its `FIN` goes to the server, the answer
comes back. -/
def closeRun : List Action :=
  [⟨.client, .shutdown 0⟩, ⟨.client, .writerNext⟩, ⟨.server, .readerNext⟩,
    ⟨.server, .writerNext⟩, ⟨.client, .readerNext⟩]

/-- When the server's closer runs before the client's `FIN` arrives, the
`FIN` is answered with an `RST`, and the byte the client has not read yet is
lost to it. -/
theorem dropRun_resets :
    Along step (fun S a => S.graceful a = true) (init fun _ => Config.default)
      (dropRun ++ ⟨.server, .closerNext⟩ :: closeRun) ∧
    ∃ c ∈ ((after (fun _ => Config.default)
        (dropRun ++ ⟨.server, .closerNext⟩ :: closeRun)).ends .client).streams,
      c.owner = .handle ∧ c.readLog = [] ∧ c.inner.recv.contents = [7] ∧
        (c.inner.pollRead 1).1 = .ready (.error StreamInner.resetError) := by
  decide +kernel

/-- The client's `FIN` arrives first, and the server's closer runs after
that. -/
def calmRun : List Action :=
  dropRun ++ closeRun ++ [⟨.server, .closerNext⟩]

/-- Then the byte stays readable. -/
theorem graceful_close_calmRun :
    ∃ c ∈ ((after (fun _ => Config.default) calmRun).ends .client).streams,
      ∃ d ∈ ((after (fun _ => Config.default) calmRun).ends .server).streams,
        d.writeLog = [7] ∧ c.inner.NeverReset ∧
          c.readLog ++ c.inner.recv.contents = d.writeLog ∧
          ∀ n, (c.inner.pollRead n).1 =
            .ready (.ok (c.inner.recv.contents.take n)) := by
  have hstate : ∃ c ∈ ((after (fun _ => Config.default)
      calmRun).ends .client).streams,
      ∃ d ∈ ((after (fun _ => Config.default) calmRun).ends .server).streams,
        c.live = true ∧ d.id = c.id ∧ c.inner.state.readOpen = false ∧
          d.writeLog = [7] := by
    decide +kernel
  obtain ⟨c, hc, d, hd, hlive, hid, hshut, hlog⟩ := hstate
  obtain ⟨-, hnever, hbytes⟩ := graceful_close (fun _ => Config.default)
    calmRun (by decide +kernel) .client c hc hlive
  obtain ⟨hall, hread⟩ := (hbytes d hd hid).2.2 hshut
  exact ⟨c, hc, d, hd, hlog, hnever, hall, hread⟩

end System

end NetMux
