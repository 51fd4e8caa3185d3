import NetMux.Concurrent.DeskView

/-!
# `open()` and `accept()` agree

Each side of a net keeps its own ledger, whatever arrives.  The transport
joins the two accounts: what one side got, the other has sent (`Net.Joined`).
From both together it follows that a call of `open()` returns only a stream
that was taken off the peer's accept queue and acknowledged there, once, and
that neither side ever has two streams of one id.
-/

namespace NetMux

open Lib Lib.Run

/-! ## Lists in which something occurs once -/

section Once

variable {α β : Type}

theorem mem_eraseIdx_of_ne {l : List α} {m n : Nat} {a : α} (hmn : m ≠ n)
    (h : l[n]? = some a) : a ∈ l.eraseIdx m :=
  List.mem_eraseIdx_iff_getElem?.mpr ⟨n, hmn.symm, h⟩

/-- What occurs at most once has one position. -/
theorem position_unique [DecidableEq α] {l : List α} {a : α} {m n : Nat}
    (hcount : l.count a ≤ 1) (hm : l[m]? = some a) (hn : l[n]? = some a) :
    m = n := by
  by_contra hne
  obtain ⟨hlt, heq⟩ := List.getElem?_eq_some_iff.mp hm
  have hperm := (List.getElem_cons_eraseIdx_perm hlt).count_eq a
  rw [heq, List.count_cons_self] at hperm
  have hrest := List.count_pos_iff.mpr (mem_eraseIdx_of_ne hne hn)
  omega

/-- Two entries do not have the same name. -/
theorem name_unique {l : List α} {f : α → Option β} {m n : Nat} {a b : α} {x : β}
    (hnodup : ((l : Multiset α).filterMap f).Nodup) (hm : l[m]? = some a)
    (hn : l[n]? = some b) (ha : f a = some x) (hb : f b = some x) : m = n := by
  by_contra hne
  rw [coe_eraseIdx hm, Multiset.filterMap_cons_some _ _ _ ha,
    Multiset.nodup_cons] at hnodup
  refine hnodup.1 ((Multiset.mem_filterMap _ _).mpr ⟨b, ?_, hb⟩)
  exact mem_eraseIdx_of_ne hne hn

theorem filter_eq_singleton {l : List α} {p : α → Bool} {a : α}
    (hnodup : l.Nodup) (ha : a ∈ l) (hp : p a = true)
    (huniq : ∀ x ∈ l, p x = true → x = a) : l.filter p = [a] := by
  refine List.perm_singleton.mp ?_
  refine (List.perm_ext_iff_of_nodup (hnodup.filter p)
    (List.nodup_singleton a)).mpr fun x => ?_
  rw [List.mem_filter, List.mem_singleton]
  constructor
  · exact fun hx => huniq x hx.1 hx.2
  · rintro rfl
    exact ⟨ha, hp⟩

theorem filter_eq_singleton_of_countP {l : List α} {p : α → Bool} {a : α}
    (hcount : l.countP p = 1) (huniq : ∀ x ∈ l, p x = true → x = a) :
    l.filter p = [a] := by
  rw [List.countP_eq_length_filter, List.length_eq_one_iff] at hcount
  obtain ⟨x, hx⟩ := hcount
  have hmem : x ∈ l.filter p := by
    rw [hx]
    exact List.mem_singleton_self x
  rw [hx, huniq x (List.mem_of_mem_filter hmem) (List.of_mem_filter hmem)]

end Once

/-! ## Two desks -/

namespace Desk

variable {r : Role} {D E : Desk} {i : StreamId}

/-- A side sends at most one `SYN` of an id. -/
theorem Own.opening_le (h : D.Own r) (hown : r.owns i = true) :
    opening i D.sent ≤ 1 := by
  have hsyns := h.syns i hown
  have honce := h.once i hown
  rw [claims] at honce
  omega

theorem Own.count_le (h : D.Own r) (hown : r.owns i = true) :
    D.ids.count i ≤ 1 :=
  (Nat.le_add_left ..).trans (h.once i hown)

theorem ref?_of_opened? {pc : OpenPc} {n : Ref} (h : pc.opened? = some n) :
    pc.ref? = some n := by
  cases pc with
  | done result => cases result <;> exact h
  | _ => cases h

theorem ref?_of_accepted? {pc : AcceptPc} {n : Ref} (h : pc.accepted? = some n) :
    pc.ref? = some n := by
  cases pc with
  | done result => cases result <;> exact h
  | _ => cases h

theorem accepted_le_refs (A : Multiset AcceptPc) :
    A.filterMap AcceptPc.accepted? ≤ A.filterMap AcceptPc.ref? := by
  induction A using Multiset.induction_on with
  | empty => exact le_rfl
  | cons pc A ih =>
      cases hacc : pc.accepted? with
      | none =>
          rw [Multiset.filterMap_cons_none _ _ hacc]
          exact ih.trans (Multiset.filterMap_le_filterMap _
            (Multiset.le_cons_self ..))
      | some n =>
          rw [Multiset.filterMap_cons_some _ _ _ hacc,
            Multiset.filterMap_cons_some _ _ _ (ref?_of_accepted? hacc)]
          exact Multiset.cons_le_cons n ih

/-- What one side got, the other has sent, as far as opening and
acknowledging streams is concerned. -/
structure Heard (D E : Desk) : Prop where
  syns : ∀ i, opening i E.got ≤ opening i D.sent
  acks : ∀ i, acking i E.got ≤ acking i D.sent

/-- The streams of an id of the peer, and a `SYN` in the reader's hand. -/
theorem Heard.count_le (h : Heard D E) (hE : E.Foreign r.peer)
    (hown : r.owns i = true) :
    (E.reader.awaits i).toNat + E.ids.count i ≤ opening i D.sent :=
  (hE.streams i (by rw [Role.peer_peer]; exact hown)).trans (h.syns i)

/-- A side has at most one stream of an id of its peer. -/
theorem Heard.count_le_one (h : Heard D E) (hD : D.Own r)
    (hE : E.Foreign r.peer) (hown : r.owns i = true) : E.ids.count i ≤ 1 := by
  have hle := h.count_le hE hown
  have hone := hD.opening_le hown
  omega

/-- At most one `ACK` of an id that has one stream. -/
theorem Foreign.acking_le (h : E.Foreign r) (hcount : E.ids.count i ≤ 1) :
    acking i E.sent ≤ 1 := by
  rw [h.acks i]
  by_contra hlt
  obtain ⟨m, hm, hmi⟩ : ∃ m ∈ E.accepts.filterMap AcceptPc.accepted?,
      E.ids[m]? = some i := Multiset.countP_pos.mp (by omega)
  have hnodup : ((E.accepts.filterMap AcceptPc.accepted?).filter
      fun n => E.ids[n]? = some i).Nodup :=
    (Multiset.nodup_of_le (accepted_le_refs _) h.refs).filter _
  have hsub : ((E.accepts.filterMap AcceptPc.accepted?).filter
      fun n => E.ids[n]? = some i) ≤ {m} := by
    refine (Multiset.le_iff_subset hnodup).mpr fun n hn => ?_
    have hni := (Multiset.mem_filter.mp hn).2
    rw [Multiset.mem_singleton]
    exact position_unique hcount hni hmi
  have hcard := Multiset.card_le_card hsub
  rw [← Multiset.countP_eq_card_filter, Multiset.card_singleton] at hcard
  exact hlt hcard

/-- **A returned `open()` was accepted**: the peer has taken the stream off its
queue, returned it and sent one `ACK`. -/
theorem opened_accepted (hD : D.Ledger r) (hE : E.Ledger r.peer)
    (hDE : Heard D E) (hED : Heard E D) {n : Ref}
    (hn : n ∈ D.opens.filterMap OpenPc.opened?) :
    ∃ i, D.ids[n]? = some i ∧ r.owns i = true ∧ acking i E.sent = 1 ∧
      ∃ m ∈ E.accepts.filterMap AcceptPc.accepted?,
        E.ids[m]? = some i ∧ m ∈ E.taken := by
  have href : n ∈ D.opens.filterMap OpenPc.ref? := by
    obtain ⟨pc, hpc, hopened⟩ := (Multiset.mem_filterMap _ _).mp hn
    exact (Multiset.mem_filterMap _ _).mpr ⟨pc, hpc, ref?_of_opened? hopened⟩
  obtain ⟨i, hi, hown⟩ := hD.own.ref n href
  obtain ⟨f, hf, hack⟩ := hD.own.confirmed n i hi hown (hD.own.opened n hn)
  have hgot : 0 < acking i D.got := Multiset.countP_pos.mpr ⟨f, hf, hack⟩
  have hsent : 0 < acking i E.sent := hgot.trans_le (hED.acks i)
  have hle := hE.foreign.acking_le (hDE.count_le_one hD.own hE.foreign hown)
  refine ⟨i, hi, hown, by omega, ?_⟩
  rw [hE.foreign.acks i] at hsent
  obtain ⟨m, hm, hmi⟩ := Multiset.countP_pos.mp hsent
  exact ⟨m, hm, hmi, hE.foreign.taken m
    (Multiset.mem_of_le (accepted_le_refs _) hm)⟩

/-- **An accepted stream was opened**: the peer has sent one `SYN` of its
id. -/
theorem accepted_opened (hD : D.Ledger r) (hE : E.Ledger r.peer)
    (hDE : Heard D E) {m : Ref} (hm : m ∈ E.taken) :
    ∃ i, E.ids[m]? = some i ∧ r.owns i = true ∧ opening i D.sent = 1 := by
  obtain ⟨i, hi, hpeer⟩ := hE.foreign.ref m
    (List.mem_append_left _ (List.mem_append_left _ hm))
  have hown : r.owns i = true := by rwa [Role.peer_peer] at hpeer
  have hcount : 0 < E.ids.count i :=
    List.count_pos_iff.mpr (List.mem_of_getElem? hi)
  have hle := hDE.count_le hE.foreign hown
  have hone := hD.own.opening_le hown
  exact ⟨i, hi, hown, by omega⟩

/-- No `SYN` of the peer is refused by the registry. -/
theorem Heard.insert_free (h : Heard D E) (hD : D.Ledger r)
    (hE : E.Ledger r.peer) (hi : E.reader = .insert i) :
    E.registry.get i = none := by
  have hown : r.owns i = true := by
    have hpeer := hE.foreign.reader i (by rw [hi]; rfl)
    rwa [Role.peer_peer] at hpeer
  by_contra hget
  obtain ⟨n, hn⟩ := Option.ne_none_iff_exists'.mp hget
  have hcount : 0 < E.ids.count i :=
    List.count_pos_iff.mpr (List.mem_of_getElem? (hE.indexed i n hn))
  have hle := h.count_le hE.foreign hown
  have hone := hD.own.opening_le hown
  rw [hi] at hle
  simp only [SynPc.awaits, beq_self_eq_true, Bool.toNat_true] at hle
  omega

/-- The outbound queue is not part of the account. -/
theorem Ledger.out (h : D.Ledger r) (F : Multiset Frame) :
    Ledger r { D with out := F } where
  indexed := h.indexed
  own := h.own.other rfl rfl rfl rfl (fun _ => rfl) le_rfl
  foreign := h.foreign.other rfl rfl rfl rfl rfl (fun _ => rfl) le_rfl
  hand := h.hand.mono (fun _ _ hi => hi) (fun _ hi => hi) le_rfl
  frames := h.frames

end Desk

/-! ## The transport -/

namespace Frame

theorem opens_normalize (i : StreamId) (f : Frame) :
    f.normalize.opens i = f.opens i := by
  cases f <;> rfl

theorem acks_normalize (i : StreamId) (f : Frame) :
    f.normalize.acks i = f.acks i := by
  cases f <;> rfl

end Frame

/-- What a receiver's codec makes of a frame that fits the length field. -/
theorem FrameCodec.transit_some {c : FrameCodec} {f g : Frame}
    (hlen : f.payloadLen < 2 ^ 32) (h : c.transit f = .ok (some g)) :
    g = f.normalize := by
  by_cases hflags : f.FlagsDefined
  · rw [c.transit_eq f hflags hlen] at h
    split at h
    · cases h
    · cases h
      rfl
  · rw [c.transit_undefined hflags] at h
    cases h

/-- A frame that the writer's codec takes fits the length field. -/
theorem FrameCodec.payloadLen_lt {c : FrameCodec} {f : Frame} {bytes : Bytes}
    (h : c.encode f [] = .ok bytes) : f.payloadLen < 2 ^ 32 := by
  rw [c.encode_eq] at h
  split at h
  · cases h
  · have hmax := c.maxPayload.toNat_lt
    omega

/-- What a turn of the writer takes off the queue is on the wire or lost. -/
theorem Session.writerNext_takes {s : Session}
    (h : s.writer = .running → s.out.queue = []) :
    (s.writerNext.2.role = s.role ∧ s.writerNext.2.idAlloc = s.idAlloc ∧
      s.writerNext.2.registry = s.registry ∧
      s.writerNext.2.streams = s.streams ∧ s.writerNext.2.accept = s.accept) ∧
      (∀ f ∈ s.writerNext.1, f.payloadLen < 2 ^ 32) ∧
      List.Sublist (s.writerNext.1.toList ++ s.writerNext.2.out.queue)
        s.out.queue := by
  unfold writerNext
  split
  · exact ⟨⟨rfl, rfl, rfl, rfl, rfl⟩, nofun, .refl _⟩
  · rename_i f rest hwriter hqueue
    rw [h hwriter] at hqueue
    cases hqueue
  · exact ⟨⟨rfl, rfl, rfl, rfl, rfl⟩, nofun, .refl _⟩
  · rename_i f rest hwriter hqueue
    dsimp only
    split
    · rename_i bytes hencode
      refine ⟨⟨rfl, rfl, rfl, rfl, rfl⟩, fun g hg => ?_, hqueue ▸ .refl _⟩
      obtain rfl := Option.some.inj hg
      exact FrameCodec.payloadLen_lt hencode
    · exact ⟨⟨rfl, rfl, rfl, rfl, rfl⟩, nofun,
        hqueue ▸ List.sublist_cons_self _ _⟩
  · exact ⟨⟨rfl, rfl, rfl, rfl, rfl⟩, nofun, List.nil_sublist _⟩
  · exact ⟨⟨rfl, rfl, rfl, rfl, rfl⟩, nofun, .refl _⟩

namespace Node

theorem synStep_got (n : Node) (flags : Flags) (payload : Bytes) :
    (n.synStep flags payload).got = n.got := by
  unfold synStep
  dsimp only
  split <;> rfl

theorem readerStep_got (n : Node) : n.readerStep.got = n.got := by
  unfold readerStep
  split
  · rfl
  · exact n.synStep_got _ _
  · repeat' split
    all_goals rfl
  · split <;> rfl
  · split
    · rfl
    · dsimp only
      split <;> rfl

/-- A node gets no frame by itself. -/
theorem step_got (n : Node) (d : Deed) : (n.step d).got = n.got := by
  cases d with
  | move m =>
      simp only [step]
      split <;> rfl
  | openCancel k =>
      simp only [step, openCancel]
      split <;> rfl
  | act a =>
      simp only [step]
      split <;> rfl
  | keepaliveTimeout =>
      simp only [step, keepaliveTimeout]
      split <;> rfl
  | reader => exact n.readerStep_got

theorem receive_got (n : Node) (f : Frame) :
    (n.receive f).got = n.got ++ [f] := by
  cases f with
  | data i flags payload =>
      simp only [receive]
      repeat' split
      all_goals rfl
  | _ => rfl

/-- Parts of the session are replaced that the desk does not see. -/
theorem desk_withSession {s : Session} (n : Node)
    (halloc : s.idAlloc = n.session.idAlloc)
    (hreg : s.registry = n.session.registry)
    (hstreams : s.streams = n.session.streams)
    (haccept : s.accept = n.session.accept) :
    { n with process := n.process.withSession s }.desk =
      { n.desk with out := s.out.queue } := by
  exact Desk.ext (congrArg StreamIdAllocator.next halloc) hreg
    (congrArg (List.map Cell.id) hstreams)
    (Session.acknowledged_congr hstreams) rfl rfl rfl
    (congrArg Chan.queue haccept) rfl rfl rfl rfl rfl

/-- The beginning of a shutdown is nothing that the desk sees. -/
theorem desk_shutdown (n : Node) (caller : Option Task) (code : ErrorCode) :
    (n.become (n.process.step (.shutdown caller code))).desk = n.desk := by
  have hsame : ∀ p : Process, p.shared.opens = n.shared.opens →
      p.shared.reader = n.shared.reader → p.accepts = n.process.accepts →
      p.shared.session.out = n.session.out →
      p.shared.session.idAlloc = n.session.idAlloc →
      p.shared.session.registry = n.session.registry →
      p.shared.session.streams = n.session.streams →
      p.shared.session.accept = n.session.accept →
      (n.become p).desk = n.desk := by
    intro p hopens hreader haccepts hout halloc hreg hstreams haccept
    have hqueue : p.shared.session.out.queue = n.session.out.queue ++ [] := by
      rw [hout, List.append_nil]
    rw [desk_become hqueue (by rw [haccept]), halloc, hreg, hstreams,
      Session.acknowledged_congr hstreams, hopens, hreader, haccepts,
      Multiset.coe_nil, Multiset.add_zero, Multiset.add_zero]
    rfl
  simp only [Process.step, Shared.step]
  repeat' split
  all_goals exact hsame _ rfl rfl rfl rfl rfl rfl rfl rfl

/-- **A turn of the writer** takes frames off the queue, and changes nothing
else that the desk sees. -/
theorem writerTurn_desk (n : Node) :
    n.writerTurn.2.session.role = n.session.role ∧
      (∀ f ∈ n.writerTurn.1, f.payloadLen < 2 ^ 32) ∧
      ∃ F : Multiset Frame, n.writerTurn.2.desk = { n.desk with out := F } ∧
        (n.writerTurn.1.toList : Multiset Frame) + F ≤ n.desk.out := by
  unfold writerTurn
  split
  · rename_i f rest hwriter hqueue
    have hout : n.desk.out = f ::ₘ (rest : Multiset Frame) :=
      congrArg Multiset.ofList hqueue
    dsimp only
    split
    · rename_i bytes hencode
      refine ⟨rfl, fun g hg => ?_, rest, n.desk_withSession rfl rfl rfl rfl, ?_⟩
      · obtain rfl := Option.some.inj hg
        exact FrameCodec.payloadLen_lt hencode
      · rw [hout]
        exact le_rfl
    · refine ⟨?_, nofun, rest, ?_, ?_⟩
      · exact (Process.step_shutdown_quietly _ _ _).1.role
      · rw [desk_shutdown]
        exact n.desk_withSession rfl rfl rfl rfl
      · rw [hout]
        exact Multiset.le_cons_self _ _
  · rename_i hother
    have hrunning : n.session.writer = .running → n.session.out.queue = [] := by
      intro hwriter
      cases hqueue : n.session.out.queue with
      | nil => rfl
      | cons f rest => exact absurd hqueue (hother f rest hwriter)
    obtain ⟨⟨hrole, halloc, hreg, hstreams, haccept⟩, hlen, hsub⟩ :=
      Session.writerNext_takes hrunning
    refine ⟨hrole, hlen, _, n.desk_withSession halloc hreg hstreams haccept, ?_⟩
    rw [Multiset.coe_add]
    exact hsub.subperm

end Node

/-! ## Both sides together -/

namespace Net

/-- Each side keeps its ledger, and what a side got, or is still to get, the
other has sent. -/
structure Joined (N : Net) : Prop where
  role : ∀ r, (N.nodes r).session.role = r
  ledger : ∀ r, (N.nodes r).desk.Ledger r
  whole : ∀ r, ∀ f ∈ N.wire r, f.payloadLen < 2 ^ 32
  sent : ∀ r, (N.nodes r.peer).desk.got +
    ((N.wire r : Multiset Frame) + (N.nodes r).desk.out).map Frame.normalize ≤
      (N.nodes r).desk.sent.map Frame.normalize

theorem ledger_new (cfg : Config) (r : Role) :
    (Node.new cfg r).desk.Ledger r where
  indexed := fun i n hget => by
    have hnone := (StreamRegistry.get_empty i).symm.trans hget
    cases hnone
  own :=
    { next := Role.owns_firstId r
      inserts := fun _ hi => absurd hi (Nat.lt_irrefl 0)
      fresh := fun _ _ _ => rfl
      once := fun _ _ => Nat.zero_le 1
      syns := fun _ _ => Nat.le_refl 0
      refs := Multiset.nodup_zero
      ref := fun _ hn => absurd hn (Multiset.notMem_zero _)
      opened := fun _ hn => absurd hn (Multiset.notMem_zero _)
      confirmed := fun _ _ hi => nomatch hi }
  foreign :=
    { reader := fun _ hi => nomatch hi
      streams := fun _ _ => Nat.le_refl 0
      line := List.nodup_nil
      ref := fun _ hn => absurd hn List.not_mem_nil
      refs := Multiset.nodup_zero
      taken := fun _ hn => absurd hn (Multiset.notMem_zero _)
      acks := fun _ => rfl }
  hand := trivial
  frames := fun _ hf => absurd hf (Multiset.notMem_zero _)

theorem joined_init (cfg : Role → Config) : (init cfg).Joined where
  role := fun _ => rfl
  ledger := fun r => ledger_new (cfg r) r
  whole := fun _ _ hf => absurd hf List.not_mem_nil
  sent := fun _ => le_rfl

variable {N N' : Net} {r : Role} {n : Node}

/-- One side moves on. -/
theorem Joined.move (h : N.Joined)
    (hnodes : N'.nodes = Function.update N.nodes r n)
    (hrole : n.session.role = r) (hledger : n.desk.Ledger r)
    (hwhole : ∀ r, ∀ f ∈ N'.wire r, f.payloadLen < 2 ^ 32)
    (hout : (N.nodes r.peer).desk.got +
      ((N'.wire r : Multiset Frame) + n.desk.out).map Frame.normalize ≤
        n.desk.sent.map Frame.normalize)
    (hin : n.desk.got + ((N'.wire r.peer : Multiset Frame) +
      (N.nodes r.peer).desk.out).map Frame.normalize ≤
        (N.nodes r.peer).desk.sent.map Frame.normalize) : N'.Joined := by
  have hself : N'.nodes r = n := by rw [hnodes, Function.update_self]
  have hpeer : N'.nodes r.peer = N.nodes r.peer := by
    rw [hnodes, Function.update_of_ne (Role.peer_ne r)]
  refine
    { role := (Role.forall_iff r).mpr ⟨?_, ?_⟩
      ledger := (Role.forall_iff r).mpr ⟨?_, ?_⟩
      whole := hwhole
      sent := (Role.forall_iff r).mpr ⟨?_, ?_⟩ }
  · rw [hself]
    exact hrole
  · rw [hpeer]
    exact h.role r.peer
  · rw [hself]
    exact hledger
  · rw [hpeer]
    exact h.ledger r.peer
  · rw [hself, hpeer]
    exact hout
  · rw [Role.peer_peer, hself, hpeer]
    exact hin

/-- One side moves on and puts nothing on the wire. -/
theorem Joined.advance (h : N.Joined) (hadv : Advances (N.nodes r) n)
    (hnodes : N'.nodes = Function.update N.nodes r n)
    (hwire : N'.wire r = N.wire r)
    (hwhole : ∀ r, ∀ f ∈ N'.wire r, f.payloadLen < 2 ^ 32)
    (hin : n.desk.got + ((N'.wire r.peer : Multiset Frame) +
      (N.nodes r.peer).desk.out).map Frame.normalize ≤
        (N.nodes r.peer).desk.sent.map Frame.normalize) : N'.Joined := by
  obtain ⟨fs, hout, hsent⟩ := enqueues_path hadv.path
  refine h.move hnodes (hadv.role.trans (h.role r)) ?_ hwhole ?_ hin
  · have hpath := hadv.path
    rw [h.role r] at hpath
    exact (h.ledger r).path hpath
  · rw [hwire, hout, hsent, ← Multiset.add_assoc, Multiset.map_add _ _ fs,
      Multiset.map_add _ _ fs, ← Multiset.add_assoc]
    exact Multiset.add_le_add_right (h.sent r)

/-- What a side is still to get. -/
theorem Joined.sent_peer (h : N.Joined) (r : Role) :
    (N.nodes r).desk.got + ((N.wire r.peer : Multiset Frame) +
      (N.nodes r.peer).desk.out).map Frame.normalize ≤
        (N.nodes r.peer).desk.sent.map Frame.normalize := by
  have hsent := h.sent r.peer
  rwa [Role.peer_peer] at hsent

/-- A side acts by itself. -/
theorem Joined.own (h : N.Joined) (r : Role) (d : Deed) :
    (N.step ⟨r, .own d⟩).Joined := by
  have hgot : ((N.nodes r).step d).desk.got = (N.nodes r).desk.got :=
    congrArg Multiset.ofList ((N.nodes r).step_got d)
  refine h.advance ((N.nodes r).step_desk d) rfl rfl h.whole ?_
  rw [hgot]
  exact h.sent_peer r

/-- A writer's turn. -/
theorem Joined.write (h : N.Joined) (r : Role) :
    (N.step ⟨r, .write⟩).Joined := by
  obtain ⟨hrole, hlen, F, hdesk, hle⟩ := (N.nodes r).writerTurn_desk
  have hstep : N.step ⟨r, .write⟩ =
      { nodes := Function.update N.nodes r (N.nodes r).writerTurn.2
        wire := Function.update N.wire r
          (N.wire r ++ (N.nodes r).writerTurn.1.toList) } := rfl
  rw [hstep]
  refine h.move rfl (hrole.trans (h.role r)) ?_ ?_ ?_ ?_
  · rw [hdesk]
    exact (h.ledger r).out F
  · refine (Role.forall_iff r).mpr ⟨fun f hf => ?_, fun f hf => ?_⟩
    · simp only [Function.update_self] at hf
      rcases List.mem_append.mp hf with hf | hf
      · exact h.whole r f hf
      · exact hlen f (Option.mem_toList.mp hf)
    · simp only [Function.update_of_ne (Role.peer_ne r)] at hf
      exact h.whole r.peer f hf
  · simp only [Function.update_self]
    rw [hdesk, ← Multiset.coe_add, Multiset.add_assoc]
    exact (Multiset.add_le_add_left (Multiset.map_le_map
      (Multiset.add_le_add_left hle))).trans (h.sent r)
  · simp only [Function.update_of_ne (Role.peer_ne r)]
    rw [hdesk]
    exact h.sent_peer r

/-- A reader's turn. -/
theorem Joined.read (h : N.Joined) (r : Role) : (N.step ⟨r, .read⟩).Joined := by
  show (N.readTurn r).Joined
  unfold readTurn
  split
  · exact h
  · rename_i f rest hwire
    split
    · have hlen : f.payloadLen < 2 ^ 32 :=
        h.whole r.peer f (by rw [hwire]; exact List.mem_cons_self ..)
      have hwhole : ∀ r', ∀ g ∈ Function.update N.wire r.peer rest r',
          g.payloadLen < 2 ^ 32 := by
        refine (Role.forall_iff r).mpr ⟨fun g hg => ?_, fun g hg => ?_⟩
        · rw [Function.update_of_ne (Role.ne_peer r)] at hg
          exact h.whole r g hg
        · rw [Function.update_self] at hg
          exact h.whole r.peer g (by rw [hwire]; exact List.mem_cons_of_mem _ hg)
      have hsent := h.sent_peer r
      rw [hwire, ← Multiset.cons_coe, Multiset.cons_add, Multiset.map_cons]
        at hsent
      -- The frame is lost, or it is what its codec makes of it.
      have hlost : (N.nodes r).desk.got + ((rest : Multiset Frame) +
          (N.nodes r.peer).desk.out).map Frame.normalize ≤
            (N.nodes r.peer).desk.sent.map Frame.normalize :=
        (Multiset.add_le_add_left (Multiset.le_cons_self ..)).trans hsent
      refine h.advance (n := _) ?_ rfl
        (Function.update_of_ne (Role.ne_peer r) ..) hwhole ?_
      · split
        · exact Node.advances_fail _ _
        · exact .refl _
        · exact Node.advances_receive _ _
      · simp only [Function.update_self]
        split
        · exact hlost
        · exact hlost
        · rename_i g htransit
          have hg := FrameCodec.transit_some hlen htransit
          have hgot : ((N.nodes r).receive g).desk.got =
              g ::ₘ (N.nodes r).desk.got :=
            (congrArg Multiset.ofList ((N.nodes r).receive_got g)).trans
              (coe_concat _ _)
          rw [hgot, Multiset.cons_add, hg]
          rwa [Multiset.add_cons] at hsent
    · exact h

/-- **A step keeps both accounts joined.** -/
theorem Joined.step (h : N.Joined) (a : NetAction) : (N.step a).Joined := by
  obtain ⟨r, act⟩ := a
  cases act with
  | own d => exact h.own r d
  | write => exact h.write r
  | read => exact h.read r

/-- What a side got, the other has sent. -/
theorem Joined.heard (h : N.Joined) (r : Role) :
    Desk.Heard (N.nodes r).desk (N.nodes r.peer).desk := by
  have hle : (N.nodes r.peer).desk.got ≤
      (N.nodes r).desk.sent.map Frame.normalize :=
    (Multiset.le_add_right ..).trans (h.sent r)
  have hcount : ∀ p : Frame → Bool, (∀ f : Frame, p f.normalize = p f) →
      (N.nodes r.peer).desk.got.countP (fun f => p f = true) ≤
        (N.nodes r).desk.sent.countP fun f => p f = true := by
    intro p hp
    refine (Multiset.countP_le_of_le _ hle).trans ?_
    rw [Multiset.countP_map, ← Multiset.countP_eq_card_filter]
    simp only [hp]
    exact le_rfl
  exact ⟨fun i => hcount _ (Frame.opens_normalize i),
    fun i => hcount _ (Frame.acks_normalize i)⟩

theorem joined_after (cfg : Role → Config) (as : List NetAction) :
    (after cfg as).Joined :=
  run_invariant_all step (fun _ a h => h.step a) as _ (joined_init cfg)

end Net

/-! ## The agreement -/

namespace Node

/-- The id of a stream. -/
def idOf (n : Node) (m : Ref) : Option StreamId :=
  (n.session.streams[m]?).map Cell.id

/-- The stream that a call of `open()` has returned. -/
def openReturned (n : Node) (k : Nat) : Option Ref :=
  (n.shared.opens[k]?).bind OpenPc.opened?

/-- The stream that a call of `accept()` has returned. -/
def acceptReturned (n : Node) (k : Nat) : Option Ref :=
  (n.process.accepts[k]?).bind AcceptPc.accepted?

/-- The streams of this id that were taken off the accept queue. -/
def dequeued (n : Node) (i : StreamId) : List Ref :=
  n.taken.filter fun m => n.idOf m == some i

/-- The frames that open this stream, among all frames ever enqueued. -/
def synsSent (n : Node) (i : StreamId) : List Frame :=
  n.sent.filter (Frame.opens i)

/-- The frames that acknowledge this stream, among all frames ever
enqueued. -/
def acksSent (n : Node) (i : StreamId) : List Frame :=
  n.sent.filter (Frame.acks i)

/-- One side agrees with its peer. -/
structure Agrees (n peer : Node) : Prop where
  /-- The stream of an `open()` was taken off the peer's accept queue once, was
  returned there, and was acknowledged once. -/
  opened : ∀ k m, n.openReturned k = some m →
    ∃ i, n.idOf m = some i ∧ peer.acksSent i = [.ack i] ∧
      ∃ k' m', peer.acceptReturned k' = some m' ∧ peer.dequeued i = [m']
  /-- The peer has enqueued one `SYN` of the id of an accepted stream. -/
  accepted : ∀ k m, n.acceptReturned k = some m →
    ∃ i, n.idOf m = some i ∧ peer.synsSent i = [.syn i]
  /-- No two calls of `open()` have returned the same id. -/
  openOnce : ∀ k k' m m', n.openReturned k = some m →
    n.openReturned k' = some m' → n.idOf m = n.idOf m' → k = k'
  /-- No two calls of `accept()` have returned the same id. -/
  acceptOnce : ∀ k k' m m', n.acceptReturned k = some m →
    n.acceptReturned k' = some m' → n.idOf m = n.idOf m' → k = k'
  /-- The registry takes the stream of a call of `open()`. -/
  openInserts : ∀ (k : Nat) i, n.shared.opens[k]? = some (.insert i) →
    ∃ g, n.session.registry.insert i n.session.streams.length = .ok g
  /-- The registry takes the stream of a `SYN`. -/
  synInserts : ∀ i, n.shared.reader = .insert i →
    ∃ g, n.session.registry.insert i n.session.streams.length = .ok g

variable {n q : Node} {r : Role} {i : StreamId}

theorem ids_eq (n : Node) (m : Ref) : n.desk.ids[m]? = n.idOf m :=
  List.getElem?_map

theorem acksSent_eq (h : n.desk.Ledger r) (hone : acking i n.desk.sent = 1) :
    n.acksSent i = [.ack i] := by
  refine filter_eq_singleton_of_countP ?_ fun f hf hacks => ?_
  · have hcount := (Multiset.coe_countP _ _).symm.trans hone
    simpa only [Bool.decide_eq_true] using hcount
  · rcases h.frames f hf with hquiet | ⟨j, rfl⟩ | ⟨j, rfl⟩
    · rw [Frame.acks_quiet hquiet] at hacks
      cases hacks
    · rw [Frame.acks_syn] at hacks
      cases hacks
    · rw [Frame.acks_ack, beq_iff_eq] at hacks
      rw [hacks]

theorem synsSent_eq (h : n.desk.Ledger r) (hone : opening i n.desk.sent = 1) :
    n.synsSent i = [.syn i] := by
  refine filter_eq_singleton_of_countP ?_ fun f hf hopens => ?_
  · have hcount := (Multiset.coe_countP _ _).symm.trans hone
    simpa only [Bool.decide_eq_true] using hcount
  · rcases h.frames f hf with hquiet | ⟨j, rfl⟩ | ⟨j, rfl⟩
    · rw [Frame.opens_quiet hquiet] at hopens
      cases hopens
    · rw [Frame.opens_syn, beq_iff_eq] at hopens
      rw [hopens]
    · rw [Frame.opens_ack] at hopens
      cases hopens

/-- A stream that was taken off the queue was so once. -/
theorem dequeued_eq (h : n.desk.Ledger r) (hcount : n.desk.ids.count i ≤ 1)
    {m : Ref} (hm : m ∈ n.taken) (hi : n.idOf m = some i) :
    n.dequeued i = [m] := by
  have hnodup : n.taken.Nodup :=
    (List.nodup_append.mp (List.nodup_append.mp h.foreign.line).1).1
  refine filter_eq_singleton hnodup hm (by rw [hi]; exact beq_self_eq_true _) ?_
  intro m' hm' hi'
  rw [beq_iff_eq] at hi'
  exact position_unique hcount ((n.ids_eq m').trans hi') ((n.ids_eq m).trans hi)

/-- A free id is taken by the registry. -/
theorem insert_of_free (h : n.session.registry.get i = none) :
    ∃ g, n.session.registry.insert i n.session.streams.length = .ok g := by
  cases hins : n.session.registry.insert i n.session.streams.length with
  | error e => exact absurd h (StreamRegistry.insert_error hins)
  | ok g => exact ⟨g, rfl⟩

theorem openReturned_some {k : Nat} {m : Ref} (h : n.openReturned k = some m) :
    ∃ pc, n.shared.opens[k]? = some pc ∧ pc.opened? = some m ∧
      pc.ref? = some m ∧ m ∈ n.desk.opens.filterMap OpenPc.opened? := by
  obtain ⟨pc, hpc, hopened⟩ := Option.bind_eq_some_iff.mp h
  refine ⟨pc, hpc, hopened, Desk.ref?_of_opened? hopened, ?_⟩
  exact (Multiset.mem_filterMap _ _).mpr ⟨pc, List.mem_of_getElem? hpc, hopened⟩

theorem acceptReturned_some {k : Nat} {m : Ref}
    (h : n.acceptReturned k = some m) :
    ∃ pc, n.process.accepts[k]? = some pc ∧ pc.accepted? = some m ∧
      pc.ref? = some m ∧ m ∈ n.desk.accepts.filterMap AcceptPc.accepted? := by
  obtain ⟨pc, hpc, hacc⟩ := Option.bind_eq_some_iff.mp h
  refine ⟨pc, hpc, hacc, Desk.ref?_of_accepted? hacc, ?_⟩
  exact (Multiset.mem_filterMap _ _).mpr ⟨pc, List.mem_of_getElem? hpc, hacc⟩

/-- The stream of a returned `open()` was accepted by the peer, once. -/
theorem opened_agrees (hn : n.desk.Ledger r) (hq : q.desk.Ledger r.peer)
    (hnq : Desk.Heard n.desk q.desk) (hqn : Desk.Heard q.desk n.desk) {k : Nat}
    {m : Ref} (hm : n.openReturned k = some m) :
    ∃ i, n.idOf m = some i ∧ q.acksSent i = [.ack i] ∧
      ∃ k' m', q.acceptReturned k' = some m' ∧ q.dequeued i = [m'] := by
  obtain ⟨-, -, -, -, hmem⟩ := openReturned_some hm
  obtain ⟨i, hi, hown, hone, m', hm', hi', htaken⟩ :=
    Desk.opened_accepted hn hq hnq hqn hmem
  obtain ⟨pc, hpc, hacc⟩ := (Multiset.mem_filterMap _ _).mp hm'
  obtain ⟨k', hk'⟩ := List.mem_iff_getElem?.mp (Multiset.mem_coe.mp hpc)
  have hcount := hnq.count_le_one hn.own hq.foreign hown
  refine ⟨i, (n.ids_eq m).symm.trans hi, acksSent_eq hq hone, k', m', ?_, ?_⟩
  · exact Option.bind_eq_some_iff.mpr ⟨pc, hk', hacc⟩
  · exact dequeued_eq hq hcount htaken ((q.ids_eq m').symm.trans hi')

/-- No id is returned by two calls of `open()`. -/
theorem openReturned_once (hn : n.desk.Ledger r) {k k' : Nat} {m m' : Ref}
    (hm : n.openReturned k = some m) (hm' : n.openReturned k' = some m')
    (hid : n.idOf m = n.idOf m') : k = k' := by
  obtain ⟨pc, hpc, -, href, -⟩ := openReturned_some hm
  obtain ⟨pc', hpc', -, href', -⟩ := openReturned_some hm'
  obtain ⟨i, hi, hown⟩ := hn.own.ref m
    ((Multiset.mem_filterMap _ _).mpr ⟨pc, List.mem_of_getElem? hpc, href⟩)
  have hi' : n.desk.ids[m']? = some i := by
    rw [ids_eq, ← hid, ← ids_eq]
    exact hi
  obtain rfl := position_unique (hn.own.count_le hown) hi hi'
  exact name_unique hn.own.refs hpc hpc' href href'

/-- No id is returned by two calls of `accept()`. -/
theorem acceptReturned_once (hn : n.desk.Ledger r)
    (hcount : ∀ i, r.peer.owns i = true → n.desk.ids.count i ≤ 1) {k k' : Nat}
    {m m' : Ref} (hm : n.acceptReturned k = some m)
    (hm' : n.acceptReturned k' = some m') (hid : n.idOf m = n.idOf m') :
    k = k' := by
  obtain ⟨pc, hpc, -, href, hmem⟩ := acceptReturned_some hm
  obtain ⟨pc', hpc', -, href', -⟩ := acceptReturned_some hm'
  obtain ⟨i, hi, hown⟩ := hn.foreign.accepted hmem
  have hi' : n.desk.ids[m']? = some i := by
    rw [ids_eq, ← hid, ← ids_eq]
    exact hi
  obtain rfl := position_unique (hcount i hown) hi hi'
  exact name_unique hn.foreign.refs hpc hpc' href href'

/-- **Two ledgers that are joined agree.** -/
theorem agrees (hn : n.desk.Ledger r) (hq : q.desk.Ledger r.peer)
    (hnq : Desk.Heard n.desk q.desk) (hqn : Desk.Heard q.desk n.desk) :
    n.Agrees q := by
  have hpeer : n.desk.Ledger r.peer.peer := by
    rw [Role.peer_peer]
    exact hn
  exact
    { opened := fun k m hm => opened_agrees hn hq hnq hqn hm
      accepted := by
        intro k m hm
        obtain ⟨-, -, -, -, hmem⟩ := acceptReturned_some hm
        have htaken := hn.foreign.taken m
          (Multiset.mem_of_le (Desk.accepted_le_refs _) hmem)
        obtain ⟨i, hi, -, hone⟩ := Desk.accepted_opened hq hpeer hqn htaken
        exact ⟨i, (n.ids_eq m).symm.trans hi, synsSent_eq hq hone⟩
      openOnce := fun k k' m m' hm hm' hid => openReturned_once hn hm hm' hid
      acceptOnce := fun k k' m m' hm hm' hid =>
        acceptReturned_once hn
          (fun i hown => hqn.count_le_one hq.own hpeer.foreign hown) hm hm' hid
      openInserts := by
        intro k i hk
        refine insert_of_free (hn.insert_free ?_)
        exact Multiset.countP_pos.mpr
          ⟨_, Multiset.mem_coe.mpr (List.mem_of_getElem? hk),
            beq_self_eq_true i⟩
      synInserts := fun i hi => insert_of_free (hqn.insert_free hq hpeer hi) }

end Node

/-- **`open()` and `accept()` agree.**  After every run of a client and a
server, in any interleaving of their calls and tasks, each side agrees with
the other. -/
theorem Net.open_accept_agree (cfg : Role → Config) (as : List NetAction)
    (r : Role) :
    ((after cfg as).nodes r).Agrees ((after cfg as).nodes r.peer) := by
  have h := joined_after cfg as
  refine Node.agrees (h.ledger r) (h.ledger r.peer) (h.heard r) ?_
  have hpeer := h.heard r.peer
  rwa [Role.peer_peer] at hpeer

/-- Both sides open a stream and accept one, in lockstep. -/
def Net.crossedOpens : List NetAction :=
  let moves (ms : List Move) : List NetAct := ms.map fun m => .own (.move m)
  let acts : List NetAct :=
    [ moves [.subscribe, .spawn, .subscribe, .spawn, .subscribe, .spawn,
        .subscribe, .spawn, .finish, .accept, .tick .call],
      moves (List.replicate 6 (.tick (.openStep 0))),
      moves (List.replicate 3 (.acceptStep 0)),
      [.write, .read],
      List.replicate 7 (.own .reader),
      moves (List.replicate 2 (.acceptStep 0)),
      [.write, .read],
      List.replicate 3 (.own .reader),
      moves [.tick (.openStep 0)] ].flatten
  acts.flatMap fun a => [⟨.client, a⟩, ⟨.server, a⟩]

/-- The client's stream has id 1 and the server's id 2. -/
theorem Net.open_accept_agree_crossedOpens :
    let N := after (fun _ => Config.default) crossedOpens
    (N.nodes .client).openReturned 0 = some 0 ∧
      (N.nodes .client).idOf 0 = some 1 ∧
      (N.nodes .client).acceptReturned 0 = some 1 ∧
      (N.nodes .client).idOf 1 = some 2 ∧
      (N.nodes .server).dequeued 1 = [1] ∧
      (N.nodes .client).Agrees (N.nodes .server) ∧
      (N.nodes .server).Agrees (N.nodes .client) := by
  have hclient := open_accept_agree (fun _ => Config.default) crossedOpens .client
  have hserver := open_accept_agree (fun _ => Config.default) crossedOpens .server
  simp only [Role.peer] at hclient hserver
  exact ⟨by decide +kernel, by decide +kernel, by decide +kernel,
    by decide +kernel, by decide +kernel, hclient, hserver⟩

end NetMux
