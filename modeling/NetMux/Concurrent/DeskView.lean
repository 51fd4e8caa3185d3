import NetMux.Concurrent.Desk

/-!
# Nodes seen as desks

Every deed of a node is a path of desk steps (`Node.step_desk`), and so is
getting a frame (`Node.advances_receive`).  Most steps open and acknowledge
nothing, which `Session.Quietly` says of the session; the others are taken one
by one.
-/

namespace NetMux

open Lib Lib.Run

/-! ## Operations that open and acknowledge nothing -/

/-- What the accounts know of a stream. -/
def Cell.sign (c : Cell) : StreamId × Bool := (c.id, c.inner.ackReceived)

namespace StreamInner

/-- An operation that neither opens nor acknowledges. -/
structure Calm (s s' : StreamInner) (frames : List Frame) : Prop where
  id : s'.id = s.id
  ack : s'.ackReceived = s.ackReceived
  quiet : ∀ f ∈ frames, f.quiet = true

variable {s s' : StreamInner}

theorem Calm.silent (hid : s'.id = s.id)
    (hack : s'.ackReceived = s.ackReceived) : Calm s s' [] :=
  ⟨hid, hack, fun _ hf => absurd hf List.not_mem_nil⟩

theorem Calm.one {f : Frame} (hid : s'.id = s.id)
    (hack : s'.ackReceived = s.ackReceived) (hf : f.quiet = true) :
    Calm s s' [f] :=
  ⟨hid, hack, fun g hg => by rw [List.mem_singleton.mp hg]; exact hf⟩

theorem calm_pollRead (s : StreamInner) (remaining : Nat) :
    s.Calm (s.pollRead remaining).2.1 (s.pollRead remaining).2.2.frames := by
  rw [pollRead_eq]
  split
  · exact .silent rfl rfl
  split
  · exact .silent rfl rfl
  split
  · exact .silent rfl rfl
  refine ⟨rfl, rfl, fun f hf => ?_⟩
  simp only [creditFrames] at hf
  split at hf
  · rw [List.mem_singleton.mp hf]
    rfl
  · exact absurd hf List.not_mem_nil

theorem calm_pollWrite (s : StreamInner) (outOpen : Bool) (buf : Bytes) :
    s.Calm (s.pollWrite outOpen buf).2.1
      (s.pollWrite outOpen buf).2.2.frames := by
  rw [pollWrite_eq]
  repeat' split
  all_goals first
    | exact .silent rfl rfl
    | exact .one rfl rfl rfl

theorem calm_localFin (s : StreamInner) :
    s.Calm s.localFin.1 s.localFin.2.frames := by
  unfold localFin
  dsimp only
  repeat' split
  all_goals first
    | exact .silent rfl rfl
    | exact .one rfl rfl rfl

theorem calm_localReset (s : StreamInner) :
    s.Calm s.localReset.1 s.localReset.2.frames := by
  unfold localReset
  dsimp only
  repeat' split
  all_goals first
    | exact .silent rfl rfl
    | exact .one rfl rfl rfl

theorem calm_onUserDrop (s : StreamInner) :
    s.Calm s.onUserDrop.1 s.onUserDrop.2.frames := by
  unfold onUserDrop
  split
  · have hfin := s.calm_localFin
    simpa [Emit.append] using hfin
  · exact .silent rfl rfl

theorem calm_deliverRest (s : StreamInner) (flags : Flags) (payload : Bytes) :
    s.Calm (Session.deliverRest s flags payload).2.1
      (Session.deliverRest s flags payload).2.2.frames := by
  have hpush : ∀ t : StreamInner, (t.pushData payload).id = t.id ∧
      (t.pushData payload).ackReceived = t.ackReceived := by
    intro t
    unfold pushData
    split <;> exact ⟨rfl, rfl⟩
  unfold Session.deliverRest
  split
  · exact s.calm_localReset
  · dsimp only
    repeat' split
    all_goals first
      | exact .silent rfl rfl
      | exact .silent (hpush s).1 (hpush s).2

end StreamInner

namespace Session

/-- A step of a session that opens and acknowledges nothing. -/
structure Quietly (s s' : Session) : Prop where
  role : s'.role = s.role
  idAlloc : s'.idAlloc = s.idAlloc
  streams : s'.streams.map Cell.sign = s.streams.map Cell.sign
  registry : ∀ i n, s'.registry.get i = some n → s.registry.get i = some n
  accept : s'.accept = s.accept
  out : ∃ fs, (∀ f ∈ fs, f.quiet = true) ∧ s'.out.queue = s.out.queue ++ fs

variable {s s' s'' : Session} {n : Ref} {c : Cell}

theorem Quietly.trans (h : Quietly s s') (h' : Quietly s' s'') :
    Quietly s s'' := by
  obtain ⟨fs, hfs, hout⟩ := h.out
  obtain ⟨gs, hgs, hout'⟩ := h'.out
  exact
    { role := h'.role.trans h.role
      idAlloc := h'.idAlloc.trans h.idAlloc
      streams := h'.streams.trans h.streams
      registry := fun i n hget => h.registry i n (h'.registry i n hget)
      accept := h'.accept.trans h.accept
      out := ⟨fs ++ gs, fun f hf => (List.mem_append.mp hf).elim (hfs f) (hgs f),
        by rw [hout', hout, List.append_assoc]⟩ }

/-- Only parts that the accounts do not look at change. -/
theorem Quietly.plain (hrole : s'.role = s.role)
    (halloc : s'.idAlloc = s.idAlloc) (hstreams : s'.streams = s.streams)
    (hreg : s'.registry = s.registry) (haccept : s'.accept = s.accept)
    (hout : s'.out = s.out) : Quietly s s' where
  role := hrole
  idAlloc := halloc
  streams := by rw [hstreams]
  registry := by rw [hreg]; exact fun _ _ hget => hget
  accept := haccept
  out := ⟨[], fun _ hf => absurd hf List.not_mem_nil, by rw [hout]; simp⟩

theorem Quietly.refl (s : Session) : Quietly s s :=
  .plain rfl rfl rfl rfl rfl rfl

/-- Entries leave the registry. -/
theorem quietly_registry (s : Session) {g : StreamRegistry}
    (hg : ∀ i n, g.get i = some n → s.registry.get i = some n) :
    Quietly s { s with registry := g } :=
  { Quietly.refl s with registry := hg }

/-- One stream is replaced by another with the same sign. -/
theorem quietly_set (hc : s.streams[n]? = some c) {c' : Cell}
    (hsign : c'.sign = c.sign) :
    Quietly s { s with streams := s.streams.set n c' } :=
  { Quietly.refl s with streams := Keyed.map_key_set hc hsign }

theorem quietly_modify (s : Session) (n : Ref) {f : Cell → Cell}
    (hf : ∀ c, (f c).sign = c.sign) :
    Quietly s { s with streams := s.streams.modify n f } :=
  { Quietly.refl s with streams := Keyed.map_key_modify n hf }

theorem quietly_sendAll (s : Session) {fs : List Frame}
    (hfs : ∀ f ∈ fs, f.quiet = true) :
    Quietly s { s with out := s.out.sendAll fs } := by
  refine { Quietly.refl s with out := ?_ }
  show ∃ gs, _ ∧ (s.out.sendAll fs).queue = _
  rw [Chan.sendAll_queue]
  split
  · exact ⟨[], fun _ hf => absurd hf List.not_mem_nil, rfl⟩
  · exact ⟨fs, hfs, rfl⟩

theorem quietly_enqueue (s : Session) {f : Frame} (hf : f.quiet = true) :
    Quietly s (s.enqueue f) :=
  s.quietly_sendAll fun g hg => by rw [List.mem_singleton.mp hg]; exact hf

/-- A calm operation on a stream. -/
theorem quietly_update (hc : s.streams[n]? = some c) {c' : Cell} {emit : Emit}
    (hcalm : c.inner.Calm c'.inner emit.frames) :
    Quietly s (s.update n c' emit) := by
  have hsign : c'.sign = c.sign := Prod.ext hcalm.id hcalm.ack
  have hset := quietly_set hc hsign
  have hsend := hset.trans (quietly_sendAll _ hcalm.quiet)
  exact { hsend with }

theorem quietly_disown (s : Session) (n : Ref) : Quietly s (s.disown n) :=
  s.quietly_modify n fun _ => rfl

/-! ### Calls on a handle, and turns of the tasks -/

theorem quietly_pollRead (s : Session) (n : Ref) (remaining : Nat) :
    Quietly s (s.pollRead n remaining) := by
  unfold pollRead
  split
  · exact .refl s
  · rename_i c hc
    exact quietly_update (handleAt_some hc).1 (c.inner.calm_pollRead remaining)

theorem quietly_pollWrite (s : Session) (n : Ref) (buf : Bytes) :
    Quietly s (s.pollWrite n buf) := by
  unfold pollWrite
  split
  · exact .refl s
  · rename_i c hc
    exact quietly_update (handleAt_some hc).1 (c.inner.calm_pollWrite _ buf)

theorem quietly_pollShutdown (s : Session) (n : Ref) :
    Quietly s (s.pollShutdown n) := by
  unfold pollShutdown
  split
  · exact .refl s
  · rename_i c hc
    exact quietly_update (handleAt_some hc).1 c.inner.calm_localFin

theorem quietly_reset (s : Session) (n : Ref) : Quietly s (s.reset n) := by
  unfold reset
  split
  · exact .refl s
  · rename_i c hc
    exact quietly_update (handleAt_some hc).1 c.inner.calm_localReset

theorem quietly_dropHandle (s : Session) (n : Ref) :
    Quietly s (s.dropHandle n) := by
  unfold dropHandle
  split
  · exact .refl s
  · rename_i c hc
    exact quietly_update (handleAt_some hc).1 c.inner.calm_onUserDrop

theorem quietly_closerNext (s : Session) : Quietly s s.closerNext := by
  unfold closerNext
  split
  · exact .refl s
  · exact { s.quietly_registry fun i n hget =>
      (StreamRegistry.get_of_remove hget).1 with }

theorem quietly_keepaliveTick (s : Session) : Quietly s s.keepaliveTick := by
  unfold keepaliveTick
  split
  · dsimp only
    split
    · exact .plain rfl rfl rfl rfl rfl rfl
    · exact { s.quietly_enqueue (f := .mkPing (s.keepalive.nonce + 1)) rfl with }
  · exact .refl s

theorem quietly_keepalivePong (s : Session) : Quietly s s.keepalivePong := by
  unfold keepalivePong
  repeat' split
  all_goals exact .plain rfl rfl rfl rfl rfl rfl

theorem quietly_handleWindowUpdate (s : Session) (i : StreamId)
    (delta : UInt32) : Quietly s (s.handleWindowUpdate i delta) := by
  unfold handleWindowUpdate
  split
  · exact .refl s
  · rename_i n c hfind
    exact quietly_update (find_some hfind).2 (.silent rfl rfl)

theorem quietly_handlePing (s : Session) (flags : Flags) (nonce : UInt32) :
    Quietly s (s.handlePing flags nonce) := by
  unfold handlePing
  split
  · exact .plain rfl rfl rfl rfl rfl rfl
  · exact s.quietly_enqueue rfl

theorem quietly_advanceShutdown (s : Session) (pc : ShutdownPc) :
    Quietly s (s.advanceShutdown pc).1 := by
  cases pc with
  | announce code => exact s.quietly_enqueue rfl
  | drain =>
      refine s.quietly_registry fun i n hget => ?_
      have hnone := (StreamRegistry.get_empty i).symm.trans hget
      cases hnone
  | close rest =>
      cases rest with
      | nil => exact .refl s
      | cons n rest => exact s.quietly_modify n fun _ => rfl
  | trip => exact .plain rfl rfl rfl rfl rfl rfl
  | _ => exact .refl s

end Session

/-! ## Nodes seen as desks -/

/-- The stream is acknowledged. -/
def Session.acknowledged (s : Session) (n : Ref) : Bool :=
  (s.streams[n]?).any fun c => c.inner.ackReceived

def Node.desk (n : Node) : Desk where
  next := n.session.idAlloc.next
  registry := n.session.registry
  ids := n.session.streams.map Cell.id
  acked := n.session.acknowledged
  opens := n.shared.opens
  reader := n.shared.reader
  hand := n.hand
  queue := n.session.accept.queue
  accepts := n.process.accepts
  out := n.session.out.queue
  sent := n.sent
  got := n.got
  taken := n.taken

/-- A node moves on, as its desk sees it. -/
structure Advances (n n' : Node) : Prop where
  role : n'.session.role = n.session.role
  path : Relation.ReflTransGen (DeskStep n.session.role) n.desk n'.desk

namespace Advances

variable {n n' n'' : Node}

theorem refl (n : Node) : Advances n n := ⟨rfl, .refl⟩

theorem trans (h : Advances n n') (h' : Advances n' n'') : Advances n n'' where
  role := h'.role.trans h.role
  path := h.path.trans (h.role ▸ h'.path)

theorem one (hrole : n'.session.role = n.session.role)
    (h : DeskStep n.session.role n.desk n'.desk) : Advances n n' :=
  ⟨hrole, .single h⟩

/-- One step to a desk that is known by its parts. -/
theorem one_of_eq {D : Desk} (hrole : n'.session.role = n.session.role)
    (h : DeskStep n.session.role n.desk D) (hdesk : n'.desk = D) :
    Advances n n' :=
  .one hrole (hdesk ▸ h)

end Advances

/-- Quiet frames are sent, and entries leave the registry. -/
def Desk.hush (D : Desk) (fs : List Frame) (g : StreamRegistry) : Desk :=
  { D with registry := g, out := D.out + fs, sent := D.sent + fs }

/-! ### Lists of calls -/

section Calls

variable {α : Type} {l : List α} {k : Nat} {a : α}

theorem coe_eraseIdx (h : l[k]? = some a) :
    (l : Multiset α) = a ::ₘ (l.eraseIdx k : Multiset α) := by
  obtain ⟨hlt, rfl⟩ := List.getElem?_eq_some_iff.mp h
  exact Multiset.coe_eq_coe.mpr (List.getElem_cons_eraseIdx_perm hlt).symm

theorem coe_set (h : l[k]? = some a) (b : α) :
    (l.set k b : Multiset α) = b ::ₘ (l.eraseIdx k : Multiset α) :=
  Multiset.coe_eq_coe.mpr
    (List.set_perm_cons_eraseIdx (List.getElem?_eq_some_iff.mp h).1 b)

theorem coe_concat (l : List α) (a : α) :
    ((l ++ [a] : List α) : Multiset α) = a ::ₘ (l : Multiset α) :=
  Multiset.coe_eq_coe.mpr (List.perm_append_singleton a l)

theorem add_coe_singleton (s : Multiset α) (a : α) :
    s + ([a] : List α) = a ::ₘ s := by
  rw [Multiset.coe_singleton, Multiset.add_comm, Multiset.singleton_add]

end Calls

namespace Session

variable {s s' : Session} {c : Cell}

theorem acknowledged_congr (hs : s'.streams = s.streams) :
    s'.acknowledged = s.acknowledged := by
  funext m
  rw [acknowledged, acknowledged, hs]

/-- There is no such stream yet. -/
theorem acknowledged_length (s : Session) :
    s.acknowledged s.streams.length = false := by
  simp [acknowledged]

/-- A stream is made that waits for its acknowledgement. -/
theorem acknowledged_concat (hs : s'.streams = s.streams ++ [c])
    (hack : c.inner.ackReceived = false) : s'.acknowledged = s.acknowledged := by
  funext m
  unfold acknowledged
  rw [hs]
  rcases Nat.lt_trichotomy m s.streams.length with hlt | rfl | hgt
  · rw [List.getElem?_append_left hlt]
  · rw [List.getElem?_concat_length, List.getElem?_eq_none le_rfl]
    exact hack
  · have hlength : (s.streams ++ [c]).length ≤ m := by
      simpa using Nat.succ_le_of_lt hgt
    rw [List.getElem?_eq_none hgt.le, List.getElem?_eq_none hlength]

/-- A stream is made that needs none. -/
theorem acknowledged_concat_true (hs : s'.streams = s.streams ++ [c])
    (hack : c.inner.ackReceived = true) :
    s'.acknowledged = Function.update s.acknowledged s.streams.length true := by
  funext m
  unfold acknowledged
  rw [hs, Function.update_apply]
  rcases Nat.lt_trichotomy m s.streams.length with hlt | rfl | hgt
  · rw [List.getElem?_append_left hlt, if_neg hlt.ne]
  · rw [List.getElem?_concat_length, if_pos rfl]
    exact hack
  · rw [List.getElem?_eq_none hgt.le, if_neg hgt.ne',
      List.getElem?_eq_none (by simpa using Nat.succ_le_of_lt hgt)]

/-- A stream is acknowledged. -/
theorem acknowledged_mark {n : Ref} (hn : n < s.streams.length)
    (hs : s'.streams = s.streams.modify n fun d =>
      { d with inner := d.inner.markAcked }) :
    s'.acknowledged = Function.update s.acknowledged n true := by
  funext m
  unfold acknowledged
  rw [hs, List.getElem?_modify, Function.update_apply]
  by_cases hm : m = n
  · subst hm
    simp [hn, StreamInner.markAcked]
  · simp [hm, Ne.symm hm]

end Session

namespace Session.Quietly

variable {s s' : Session}

theorem ids (h : Quietly s s') :
    s'.streams.map Cell.id = s.streams.map Cell.id := by
  have hmap := congrArg (List.map Prod.fst) h.streams
  rw [List.map_map, List.map_map] at hmap
  exact hmap

theorem acknowledged (h : Quietly s s') : s'.acknowledged = s.acknowledged := by
  have hsign : ∀ (s : Session) (n : Ref), s.acknowledged n =
      ((s.streams.map Cell.sign)[n]?).any Prod.snd := by
    intro s n
    rw [Session.acknowledged, List.getElem?_map]
    cases s.streams[n]? <;> rfl
  funext n
  rw [hsign, hsign, h.streams]

end Session.Quietly

namespace Node

variable {n : Node} {p : Process} {s : Session}

theorem become_sent {fs : List Frame} (h : p.shared.session.out.queue =
    n.session.out.queue ++ fs) : (n.become p).sent = n.sent ++ fs := by
  show n.sent ++ List.drop _ _ = _
  rw [h, List.drop_left]

theorem become_sent_same (h : p.shared.session.out = n.session.out) :
    (n.become p).sent = n.sent := by
  have hnil : p.shared.session.out.queue = n.session.out.queue ++ [] := by
    rw [h, List.append_nil]
  rw [become_sent hnil, List.append_nil]

theorem become_taken
    (h : n.session.accept.queue.length ≤ p.shared.session.accept.queue.length) :
    (n.become p).taken = n.taken := by
  show n.taken ++ List.take _ _ = _
  rw [Nat.sub_eq_zero_of_le h, List.take_zero, List.append_nil]

/-- The desk after a step that leaves the accept queue alone. -/
theorem desk_become {fs : List Frame}
    (hout : p.shared.session.out.queue = n.session.out.queue ++ fs)
    (haccept : p.shared.session.accept.queue = n.session.accept.queue) :
    (n.become p).desk =
      { n.desk with
        next := p.shared.session.idAlloc.next
        registry := p.shared.session.registry
        ids := p.shared.session.streams.map Cell.id
        acked := p.shared.session.acknowledged
        opens := p.shared.opens
        reader := p.shared.reader
        accepts := p.accepts
        out := n.desk.out + fs
        sent := n.desk.sent + fs } := by
  have hsent := become_sent hout
  have htaken : (n.become p).taken = n.taken :=
    become_taken (by rw [haccept])
  simp only [desk, session, shared, hsent, htaken] at hout haccept ⊢
  simp only [become, haccept, hout, Multiset.coe_add]

/-- A step that leaves the accept queue alone is a step of the desk, when both
change the same parts in the same way. -/
theorem advances_step {D : Desk} {fs : List Frame}
    (hrole : p.shared.session.role = n.session.role)
    (hqueue : p.shared.session.out.queue = n.session.out.queue ++ fs)
    (haccept : p.shared.session.accept.queue = n.session.accept.queue)
    (h : DeskStep n.session.role n.desk D)
    (hsame : { D with
      next := n.desk.next
      registry := n.desk.registry
      ids := n.desk.ids
      acked := n.desk.acked
      opens := n.desk.opens
      reader := n.desk.reader
      accepts := n.desk.accepts
      out := n.desk.out
      sent := n.desk.sent } = n.desk)
    (hnext : p.shared.session.idAlloc.next = D.next)
    (hreg : p.shared.session.registry = D.registry)
    (hids : p.shared.session.streams.map Cell.id = D.ids)
    (hacked : p.shared.session.acknowledged = D.acked)
    (hopens : (p.shared.opens : Multiset OpenPc) = D.opens)
    (hreader : p.shared.reader = D.reader)
    (haccepts : (p.accepts : Multiset AcceptPc) = D.accepts)
    (hout : n.desk.out + fs = D.out) (hsent : n.desk.sent + fs = D.sent) :
    Advances n (n.become p) := by
  have hdesk : (n.become p).desk = D := by
    rw [desk_become hqueue haccept, hnext, hreg, hids, hacked, hopens, hreader,
      haccepts, hout, hsent, ← hsame]
  exact .one_of_eq hrole h hdesk

/-- The same for a step that sends nothing. -/
theorem advances_silent {D : Desk}
    (hrole : p.shared.session.role = n.session.role)
    (hqueue : p.shared.session.out.queue = n.session.out.queue)
    (haccept : p.shared.session.accept.queue = n.session.accept.queue)
    (h : DeskStep n.session.role n.desk D)
    (hsame : { D with
      next := n.desk.next
      registry := n.desk.registry
      ids := n.desk.ids
      acked := n.desk.acked
      opens := n.desk.opens
      reader := n.desk.reader
      accepts := n.desk.accepts } = n.desk)
    (hnext : p.shared.session.idAlloc.next = D.next)
    (hreg : p.shared.session.registry = D.registry)
    (hids : p.shared.session.streams.map Cell.id = D.ids)
    (hacked : p.shared.session.acknowledged = D.acked)
    (hopens : (p.shared.opens : Multiset OpenPc) = D.opens)
    (hreader : p.shared.reader = D.reader)
    (haccepts : (p.accepts : Multiset AcceptPc) = D.accepts) :
    Advances n (n.become p) := by
  have hout : n.desk.out = D.out := by rw [← hsame]
  have hsent : n.desk.sent = D.sent := by rw [← hsame]
  have hquiet : p.shared.session.out.queue = n.session.out.queue ++ [] := by
    rw [hqueue, List.append_nil]
  refine advances_step hrole hquiet haccept h ?_ hnext hreg hids hacked hopens
    hreader haccepts ((Multiset.add_zero _).trans hout)
    ((Multiset.add_zero _).trans hsent)
  rw [hout, hsent]
  exact hsame

/-- The desk after a quiet step of the session. -/
theorem desk_become_quietly (hq : n.session.Quietly p.shared.session) :
    ∃ fs : List Frame, (∀ f ∈ fs, f.quiet = true) ∧
      (n.become p).desk =
        { n.desk.hush fs p.shared.session.registry with
          opens := p.shared.opens
          reader := p.shared.reader
          accepts := p.accepts } := by
  obtain ⟨fs, hfs, hout⟩ := hq.out
  refine ⟨fs, hfs, ?_⟩
  rw [desk_become hout (by rw [hq.accept]), hq.ids, hq.acknowledged,
    hq.idAlloc]
  rfl

/-- A quiet step of the session, and nothing else. -/
theorem advances_quietly (hq : n.session.Quietly p.shared.session)
    (hopens : p.shared.opens = n.shared.opens)
    (hreader : p.shared.reader = n.shared.reader)
    (haccepts : p.accepts = n.process.accepts) :
    Advances n (n.become p) := by
  obtain ⟨fs, hfs, hdesk⟩ := desk_become_quietly hq
  refine .one hq.role ?_
  rw [hdesk, hopens, hreader, haccepts]
  exact .quiet fs _ hfs hq.registry

end Node

/-! ### Calls of `open()` -/

/-- A call of `open()` has made a step. -/
def Process.withOpen (p : Process) (k : Nat) (r : Session × OpenPc) : Process :=
  { p with shared :=
    { p.shared with session := r.1, opens := p.shared.opens.set k r.2 } }

theorem Process.step_openStep {p : Process} {k : Nat} {pc : OpenPc}
    (h : p.shared.opens[k]? = some pc) :
    p.step (.tick (.openStep k)) =
      p.withOpen k (p.shared.session.advanceOpen pc) := by
  simp [step, permits, tripped, Shared.step, Shared.advance, h, withOpen]

theorem Process.step_openTimer {p : Process} {k : Nat} {pc : OpenPc}
    (h : p.shared.opens[k]? = some pc) :
    p.step (.tick (.openTimer k)) =
      p.withOpen k (p.shared.session.openTimer pc) := by
  simp [step, permits, tripped, Shared.step, Shared.advance, h, withOpen]

theorem Shared.advance_none {c : Shared} {k : Nat} (h : c.opens[k]? = none)
    (f : Session → OpenPc → Session × OpenPc) : c.advance k f = c := by
  simp only [advance, h]

namespace Node

variable {n : Node} {k : Nat} {pc : OpenPc}

/-- A call moves on without taking anything in hand. -/
theorem advances_open (hpc : n.shared.opens[k]? = some pc) {r : Session × OpenPc}
    (hq : n.session.Quietly r.1) (hidle : r.2.idles = true)
    (href : r.2.ref? = none ∨ r.2.ref? = pc.ref?) :
    Advances n (n.become (n.process.withOpen k r)) := by
  obtain ⟨fs, hfs, hdesk⟩ :=
    desk_become_quietly (p := n.process.withOpen k r) hq
  refine ⟨hq.role, ?_⟩
  rw [hdesk]
  refine .tail (.single (.quiet fs r.1.registry hfs hq.registry)) ?_
  have hset := coe_set hpc r.2
  show DeskStep _ (n.desk.hush fs r.1.registry)
    { n.desk.hush fs r.1.registry with opens := (n.shared.opens.set k r.2 :) }
  rw [hset]
  exact .openOn (coe_eraseIdx hpc) hidle href

/-- A call that stays where it is. -/
theorem advances_open_same (hpc : n.shared.opens[k]? = some pc) :
    Advances n (n.become (n.process.withOpen k (n.session, pc))) := by
  refine advances_quietly (.refl _) ?_ rfl rfl
  exact Keyed.set_same hpc

/-- A call gets an id. -/
theorem advances_allocate (hpc : n.shared.opens[k]? = some .allocate) :
    Advances n (n.become (n.process.withOpen k
      (n.session.advanceOpen .allocate))) := by
  cases halloc : n.session.idAlloc.allocate with
  | none =>
      simp only [Session.advanceOpen, halloc]
      exact advances_open hpc (.refl _) rfl (.inl rfl)
  | some a =>
      obtain ⟨i, alloc⟩ := a
      obtain ⟨rfl, hnext⟩ := StreamIdAllocator.allocate_some halloc
      simp only [Session.advanceOpen, halloc]
      exact advances_silent rfl rfl rfl (.allocated (coe_eraseIdx hpc) hnext) rfl
        rfl rfl rfl rfl (coe_set hpc _) rfl rfl

/-- A call registers its stream. -/
theorem advances_insert {i : StreamId}
    (hpc : n.shared.opens[k]? = some (.insert i)) :
    Advances n (n.become (n.process.withOpen k
      (n.session.advanceOpen (.insert i)))) := by
  have hlength : n.desk.ids.length = n.session.streams.length :=
    List.length_map _
  cases hins : n.session.registry.insert i n.session.streams.length with
  | error e =>
      simp only [Session.advanceOpen, hins]
      exact advances_silent rfl rfl rfl
        (.refused (coe_eraseIdx hpc) (hlength ▸ hins)) rfl rfl rfl
        List.map_append (Session.acknowledged_concat rfl rfl) (coe_set hpc _)
        rfl rfl
  | ok g =>
      simp only [Session.advanceOpen, hins]
      refine advances_silent rfl rfl rfl
        (.inserted (coe_eraseIdx hpc) (hlength ▸ n.session.acknowledged_length)
          (hlength ▸ hins)) rfl rfl rfl List.map_append
        (Session.acknowledged_concat rfl rfl) ?_ rfl rfl
      rw [hlength]
      exact coe_set hpc _

/-- A call enqueues its `SYN`. -/
theorem advances_send {i : StreamId} {h : Ref}
    (hpc : n.shared.opens[k]? = some (.send i h)) :
    Advances n (n.become (n.process.withOpen k
      (n.session.advanceOpen (.send i h)))) := by
  cases hclosed : n.session.out.closed with
  | true =>
      simp only [Session.advanceOpen, hclosed]
      exact advances_open hpc (.refl _) rfl (.inr rfl)
  | false =>
      simp only [Session.advanceOpen, hclosed]
      have hqueue : (n.session.out.send (.syn i)).queue =
          n.session.out.queue ++ [.syn i] := by
        simp [Chan.send, hclosed]
      exact advances_step rfl hqueue rfl (.synSent (coe_eraseIdx hpc)) rfl rfl
        rfl rfl rfl (coe_set hpc _) rfl rfl (add_coe_singleton _ _)
        (add_coe_singleton _ _)

/-- A call waits for its `ACK`. -/
theorem advances_wait {i : StreamId} {h : Ref}
    (hpc : n.shared.opens[k]? = some (.wait i h)) :
    Advances n (n.become (n.process.withOpen k
      (n.session.advanceOpen (.wait i h)))) := by
  cases hpending : n.session.pendingOpen h with
  | none =>
      simp only [Session.advanceOpen, hpending]
      exact advances_open_same hpc
  | some c =>
      obtain ⟨hc, -⟩ := Session.pendingOpen_some hpending
      cases hwait : c.inner.waitAcked with
      | pending =>
          simp only [Session.advanceOpen, hpending, hwait]
          exact advances_open_same hpc
      | ready result =>
          cases result with
          | error e =>
              simp only [Session.advanceOpen, hpending, hwait]
              exact advances_open hpc (.refl _) rfl (.inr rfl)
          | ok u =>
              have hack : n.session.acknowledged h = true := by
                rw [Session.acknowledged, hc]
                unfold StreamInner.waitAcked at hwait
                split at hwait
                · assumption
                · repeat' split at hwait
                  all_goals cases hwait
              have hq : n.session.Quietly
                  { n.session with
                    streams :=
                      n.session.streams.set h { c with owner := .handle } } :=
                Session.quietly_set hc rfl
              simp only [Session.advanceOpen, hpending, hwait]
              exact advances_silent rfl rfl rfl (.opened (coe_eraseIdx hpc) hack)
                rfl rfl rfl hq.ids hq.acknowledged (coe_set hpc _) rfl rfl

/-- **A step of a call of `open()`.** -/
theorem advances_openStep (hpc : n.shared.opens[k]? = some pc) :
    Advances n (n.become (n.process.withOpen k (n.session.advanceOpen pc))) := by
  cases pc with
  | closedCheck =>
      refine advances_open hpc (.refl _) ?_ (.inl ?_) <;>
        · simp only [Session.advanceOpen]
          split <;> rfl
  | goneCheck =>
      refine advances_open hpc (.refl _) ?_ (.inl ?_) <;>
        · simp only [Session.advanceOpen]
          split <;> rfl
  | limitCheck =>
      refine advances_open hpc (.refl _) ?_ (.inl ?_) <;>
        · simp only [Session.advanceOpen]
          split <;> rfl
  | allocate => exact advances_allocate hpc
  | insert i => exact advances_insert hpc
  | send i h => exact advances_send hpc
  | wait i h => exact advances_wait hpc
  | remove i h e =>
      refine advances_open hpc ?_ rfl (.inl rfl)
      refine (n.session.quietly_disown h).trans (Session.quietly_registry _ ?_)
      exact fun j m hget => (StreamRegistry.get_of_remove hget).1
  | done result => exact advances_open_same hpc

theorem advances_openTimer (hpc : n.shared.opens[k]? = some pc) :
    Advances n (n.become (n.process.withOpen k (n.session.openTimer pc))) := by
  cases pc with
  | wait i h =>
      simp only [Session.openTimer]
      split
      · exact advances_open_same hpc
      · split
        · exact advances_open hpc (n.session.quietly_enqueue rfl) rfl (.inr rfl)
        · exact advances_wait hpc
  | _ => exact advances_open_same hpc

end Node

/-! ### Calls of `accept()` -/

/-- A call of `accept()` has made a step. -/
def Process.withAccept (p : Process) (k : Nat) (r : Session × AcceptPc) :
    Process :=
  { p with
    shared := { p.shared with session := r.1 }
    accepts := p.accepts.set k r.2 }

theorem Process.step_acceptStep {p : Process} {k : Nat} {pc : AcceptPc}
    (h : p.accepts[k]? = some pc) :
    p.step (.acceptStep k) =
      p.withAccept k (p.shared.session.advanceAccept p.watch
        (p.accepts.any AcceptPc.holdsLock) pc) := by
  simp [step, h, withAccept]

namespace Node

variable {n : Node} {k : Nat} {pc : AcceptPc}

/-- A call moves on without a stream. -/
theorem advances_accept (hpc : n.process.accepts[k]? = some pc)
    {r : Session × AcceptPc} (hq : n.session.Quietly r.1)
    (hnone : pc.accepted? = none) (href : r.2.ref? = none) :
    Advances n (n.become (n.process.withAccept k r)) := by
  obtain ⟨fs, hfs, hdesk⟩ :=
    desk_become_quietly (p := n.process.withAccept k r) hq
  refine ⟨hq.role, ?_⟩
  rw [hdesk]
  refine .tail (.single (.quiet fs r.1.registry hfs hq.registry)) ?_
  have hset := coe_set hpc r.2
  show DeskStep _ (n.desk.hush fs r.1.registry)
    { n.desk.hush fs r.1.registry with
      accepts := (n.process.accepts.set k r.2 :) }
  rw [hset]
  exact .acceptOn (coe_eraseIdx hpc) hnone href

/-- A call that stays where it is. -/
theorem advances_accept_same (hpc : n.process.accepts[k]? = some pc) :
    Advances n (n.become (n.process.withAccept k (n.session, pc))) := by
  refine advances_quietly (.refl _) rfl rfl ?_
  exact Keyed.set_same hpc

/-- A call takes the head of the accept queue. -/
theorem advances_dequeue (hpc : n.process.accepts[k]? = some pc)
    (hnone : pc.ref? = none) {m : Ref} {rest : List Ref}
    (hqueue : n.session.accept.queue = m :: rest) :
    Advances n (n.become (n.process.withAccept k
      ({ n.session with accept := { n.session.accept with queue := rest } },
        .send m))) := by
  have htaken : ∀ r : Session × AcceptPc, r.1.accept.queue = rest →
      (n.become (n.process.withAccept k r)).taken = n.taken ++ [m] := by
    intro r hrest
    show n.taken ++ List.take (_ - r.1.accept.queue.length) _ = _
    rw [hrest, hqueue, List.length_cons, Nat.add_sub_cancel_left]
    rfl
  refine .one_of_eq rfl (.dequeued (coe_eraseIdx hpc) hnone hqueue) ?_
  exact Desk.ext rfl rfl rfl rfl rfl rfl rfl rfl (coe_set hpc _) rfl
    (congrArg Multiset.ofList (become_sent_same rfl)) rfl (htaken _ rfl)

theorem advances_acceptStep (hpc : n.process.accepts[k]? = some pc)
    (w : Watch Bool) (locked : Bool) :
    Advances n (n.become (n.process.withAccept k
      (n.session.advanceAccept w locked pc))) := by
  cases pc with
  | closedCheck =>
      refine advances_accept hpc (.refl _) rfl ?_
      simp only [Session.advanceAccept]
      split <;> rfl
  | subscribe => exact advances_accept hpc (.refl _) rfl rfl
  | lock rx =>
      refine advances_accept hpc (.refl _) rfl ?_
      simp only [Session.advanceAccept]
      split <;> rfl
  | recv rx =>
      simp only [Session.advanceAccept]
      split
      · exact advances_accept hpc (.refl _) rfl rfl
      · split
        · exact advances_accept_same hpc
        · rename_i m rest hqueue
          exact advances_dequeue hpc rfl hqueue
  | send m =>
      simp only [Session.advanceAccept]
      split
      · exact advances_accept_same hpc
      · rename_i c hc
        split
        · exact advances_accept hpc (Session.quietly_set hc rfl) rfl rfl
        · rename_i hclosed
          have hq : n.session.Quietly { n.session with
              streams := n.session.streams.set m { c with owner := .handle } } :=
            Session.quietly_set hc rfl
          have hqueue : (n.session.out.send (.ack c.id)).queue =
              n.session.out.queue ++ [.ack c.id] := by
            simp [Chan.send, hclosed]
          have hid : n.desk.ids[m]? = some c.id := by
            show (n.session.streams.map Cell.id)[m]? = _
            rw [List.getElem?_map, hc]
            rfl
          exact advances_step rfl hqueue rfl (.ackSent (coe_eraseIdx hpc) hid)
            rfl rfl rfl hq.ids hq.acknowledged rfl rfl (coe_set hpc _)
            (add_coe_singleton _ _) (add_coe_singleton _ _)
  | done result => exact advances_accept_same hpc
  | dropped => exact advances_accept_same hpc

end Node

/-! ### The other moves of a process -/

namespace Process

variable (p : Process)

/-- A shutdown begins. -/
theorem step_shutdown_quietly (caller : Option Task) (code : ErrorCode) :
    p.shared.session.Quietly (p.step (.shutdown caller code)).shared.session ∧
      (p.step (.shutdown caller code)).shared.opens = p.shared.opens ∧
      (p.step (.shutdown caller code)).shared.reader = p.shared.reader ∧
      (p.step (.shutdown caller code)).accepts = p.accepts := by
  simp only [step, Shared.step]
  repeat' split
  all_goals exact ⟨.plain rfl rfl rfl rfl rfl rfl, rfl, rfl, rfl⟩

theorem step_quit_same (t : Task) :
    (p.step (.quit t)).shared = p.shared ∧
      (p.step (.quit t)).accepts = p.accepts := by
  simp only [step]
  split <;> exact ⟨rfl, rfl⟩

end Process

namespace Node

variable {n : Node}

/-- Nothing that the desk sees. -/
theorem advances_same {p : Process} (hshared : p.shared = n.process.shared)
    (haccepts : p.accepts = n.process.accepts) : Advances n (n.become p) := by
  refine advances_quietly ?_ ?_ ?_ haccepts
  · rw [hshared]
    exact .refl _
  · rw [hshared]
    rfl
  · rw [hshared]
    rfl

/-- A task starts a shutdown and ends. -/
theorem advances_shutdown_quit {s : Session} (hq : n.session.Quietly s)
    (t : Task) (code : ErrorCode) :
    Advances n (n.become (((n.process.withSession s).step
      (.shutdown (some t) code)).step (.quit t))) := by
  obtain ⟨hshut, hopens, hreader, haccepts⟩ :=
    (n.process.withSession s).step_shutdown_quietly (some t) code
  obtain ⟨hquit, haccepts'⟩ :=
    ((n.process.withSession s).step (.shutdown (some t) code)).step_quit_same t
  refine advances_quietly ?_ ?_ ?_ (haccepts'.trans haccepts)
  · rw [hquit]
    exact hq.trans hshut
  · rw [hquit]
    exact hopens
  · rw [hquit]
    exact hreader

/-- The reader has nothing to vouch for. -/
theorem advances_hand (n : Node) {pc : HandPc}
    (hpc : pc = .idle ∨ ∃ m flags payload, pc = .deliver m flags payload) :
    Advances n { n with hand := pc } :=
  .one rfl (.handed hpc)

theorem advances_fail (n : Node) (e : Error) : Advances n (n.fail e) := by
  have hshut := advances_shutdown_quit (.refl n.session) .reader
    (Session.errorCodeOf e)
  exact hshut.trans (advances_hand _ (.inl rfl))

theorem advances_acceptCancel (k : Nat) :
    Advances n (n.become (n.process.step (.acceptCancel k))) := by
  cases hpc : n.process.accepts[k]? with
  | none =>
      refine advances_same rfl ?_
      exact List.modify_eq_self (List.getElem?_eq_none_iff.mp hpc)
  | some pc =>
      have hmodify : n.process.accepts.modify k AcceptPc.cancel =
          n.process.accepts.set k pc.cancel := by
        rw [List.modify_eq_set_getElem?, hpc]
        rfl
      have hstep : n.process.step (.acceptCancel k) =
          n.process.withAccept k (n.session, pc.cancel) := by
        simp only [Process.step, hmodify]
        rfl
      rw [hstep]
      cases pc with
      | lock rx => exact advances_accept hpc (.refl _) rfl rfl
      | recv rx => exact advances_accept hpc (.refl _) rfl rfl
      | _ => exact advances_accept_same hpc

/-- **A move of its process.** -/
theorem advances_move {m : Move} (hm : m.ofNode = true) :
    Advances n (n.become (n.process.step m)) := by
  cases m with
  | subscribe =>
      refine advances_same ?_ ?_ <;>
        · simp only [Process.step]
          split <;> rfl
  | spawn =>
      refine advances_same ?_ ?_ <;>
        · simp only [Process.step]
          split <;> rfl
  | finish =>
      refine advances_same ?_ ?_ <;>
        · simp only [Process.step]
          split <;> rfl
  | wake t =>
      refine advances_same ?_ ?_ <;>
        · simp only [Process.step]
          repeat' split
          all_goals rfl
  | quit t =>
      obtain ⟨hshared, haccepts⟩ := n.process.step_quit_same t
      exact advances_same hshared haccepts
  | accept =>
      simp only [Process.step]
      split
      · exact advances_silent rfl rfl rfl .acceptCalled rfl rfl rfl rfl rfl rfl
          rfl (coe_concat _ _)
      · exact advances_same rfl rfl
  | acceptStep k =>
      cases hpc : n.process.accepts[k]? with
      | none =>
          simp only [Process.step, hpc]
          exact advances_same rfl rfl
      | some pc =>
          rw [Process.step_acceptStep hpc]
          exact advances_acceptStep hpc _ _
  | acceptCancel k => exact advances_acceptCancel k
  | shutdown caller code =>
      obtain ⟨hq, hopens, hreader, haccepts⟩ :=
        n.process.step_shutdown_quietly caller code
      exact advances_quietly hq hopens hreader haccepts
  | tick a =>
      cases a with
      | call =>
          simp only [Process.step]
          split
          · exact advances_silent rfl rfl rfl .called rfl rfl rfl rfl rfl
              (coe_concat _ _) rfl rfl
          · exact advances_same rfl rfl
      | openStep k =>
          cases hpc : n.shared.opens[k]? with
          | none => exact advances_same (Shared.advance_none hpc _) rfl
          | some pc =>
              rw [Process.step_openStep hpc]
              exact advances_openStep hpc
      | openTimer k =>
          cases hpc : n.shared.opens[k]? with
          | none => exact advances_same (Shared.advance_none hpc _) rfl
          | some pc =>
              rw [Process.step_openTimer hpc]
              exact advances_openTimer hpc
      | shutdownStep =>
          exact advances_quietly (n.session.quietly_advanceShutdown _) rfl rfl rfl
      | _ => cases hm

end Node

/-! ### The reader -/

/-- The handling of a `SYN` has made a step. -/
def Process.withSyn (p : Process) (r : Session × SynPc) : Process :=
  { p with shared := { p.shared with session := r.1, reader := r.2 } }

namespace Node

variable {n : Node} {flags : Flags} {payload : Bytes}

/-- The reader moves on with a `SYN` that becomes no stream in this step. -/
theorem advances_syn {pc : SynPc} {r : Session × SynPc}
    (hreader : n.shared.reader = pc) (hq : n.session.Quietly r.1)
    (hawaits : ∀ i, r.2.awaits i = true → pc.awaits i = true)
    (hoffers : r.2.offers = []) (hid : ∀ i, r.2.id? = some i → pc.id? = some i) :
    Advances n (n.become (n.process.withSyn r)) := by
  subst hreader
  obtain ⟨fs, hfs, hdesk⟩ := desk_become_quietly (p := n.process.withSyn r) hq
  refine ⟨hq.role, ?_⟩
  rw [hdesk]
  refine .tail (.single (.quiet fs r.1.registry hfs hq.registry)) ?_
  exact .synOn hawaits hoffers hid

/-- A `SYN` becomes a stream. -/
theorem advances_register {i : StreamId} {g : StreamRegistry}
    (hreader : n.shared.reader = .insert i)
    (hins : n.session.registry.insert i n.session.streams.length = .ok g) :
    Advances n (n.become (n.process.withSyn
      ({ n.session with
          registry := g
          streams := n.session.streams ++
            [Cell.new (StreamInner.new i .remotely n.session.config) .queued] },
        .offer i n.session.streams.length))) := by
  have hlength : n.desk.ids.length = n.session.streams.length :=
    List.length_map _
  refine advances_silent rfl rfl rfl (.registered hreader (hlength ▸ hins)) rfl
    rfl rfl List.map_append ?_ rfl ?_ rfl
  · rw [hlength]
    exact Session.acknowledged_concat_true rfl rfl
  · rw [hlength]
    rfl

/-- The stream joins the accept queue, and the frame is looked at further. -/
theorem advances_offer {i : StreamId} {m : Ref}
    (hhand : n.hand = .syn flags payload)
    (hreader : n.shared.reader = .offer i m)
    (hopen : n.session.accept.closed = false) :
    Advances n { n.become (n.process.withSyn
      ({ n.session with accept := n.session.accept.send m }, .idle)) with
        hand := .lookup i flags payload } := by
  have hqueue : (n.session.accept.send m).queue =
      n.session.accept.queue ++ [m] := by
    simp [Chan.send, hopen]
  have htaken : ∀ r : Session × SynPc,
      r.1.accept.queue = n.session.accept.queue ++ [m] →
      (n.become (n.process.withSyn r)).taken = n.taken := by
    intro r hr
    refine become_taken ?_
    show _ ≤ r.1.accept.queue.length
    simp [hr]
  refine .one_of_eq rfl (.offered hhand hreader) ?_
  exact Desk.ext rfl rfl rfl rfl rfl rfl rfl hqueue rfl rfl
    (congrArg Multiset.ofList (become_sent_same rfl)) rfl (htaken _ hqueue)

theorem synStep_eq (n : Node) (flags : Flags) (payload : Bytes) :
    n.synStep flags payload =
      match n.shared.reader, (n.session.advanceSyn n.shared.reader).2 with
      | .insert _, .idle => (n.become (n.process.withSyn
          (n.session.advanceSyn n.shared.reader))).fail
            (.protocol "duplicate stream id")
      | .offer id _, .idle => { n.become (n.process.withSyn
          (n.session.advanceSyn n.shared.reader)) with
            hand := .lookup id flags payload }
      | _, .idle => { n.become (n.process.withSyn
          (n.session.advanceSyn n.shared.reader)) with hand := .idle }
      | _, _ => n.become (n.process.withSyn
          (n.session.advanceSyn n.shared.reader)) := rfl

/-- **A step of the `SYN` part.** -/
theorem advances_synStep (hhand : n.hand = .syn flags payload) :
    Advances n (n.synStep flags payload) := by
  rw [synStep_eq]
  cases hreader : n.shared.reader with
  | idle =>
      exact .trans (advances_syn (r := (n.session, .idle)) hreader (.refl _)
        (by simp [SynPc.awaits]) rfl (by simp [SynPc.id?]))
        (advances_hand _ (.inl rfl))
  | goneCheck i =>
      cases hgone : n.session.peerGone with
      | true =>
          simp only [Session.advanceSyn, hgone, if_true]
          exact advances_syn hreader (.refl _) (by simp [SynPc.awaits]) rfl
            fun _ hj => hj
      | false =>
          simp only [Session.advanceSyn, hgone, Bool.false_eq_true, if_false]
          exact advances_syn hreader (.refl _) (fun _ hj => hj) rfl
            fun _ hj => hj
  | limitCheck i =>
      by_cases hlimit : n.session.config.maxStreams ≤ n.session.registry.len
      · simp only [Session.advanceSyn, if_pos hlimit]
        exact advances_syn hreader (.refl _) (by simp [SynPc.awaits]) rfl
          fun _ hj => hj
      · simp only [Session.advanceSyn, if_neg hlimit]
        exact advances_syn hreader (.refl _) (fun _ hj => hj) rfl fun _ hj => hj
  | insert i =>
      cases hins : n.session.registry.insert i n.session.streams.length with
      | error e =>
          simp only [Session.advanceSyn, hins]
          exact .trans (advances_syn (r := (n.session, .idle)) hreader (.refl _)
            (by simp [SynPc.awaits]) rfl (by simp [SynPc.id?]))
            (advances_fail _ _)
      | ok g =>
          simp only [Session.advanceSyn, hins]
          exact advances_register hreader hins
  | offer i m =>
      cases haccept : n.session.accept.closed with
      | true =>
          simp only [Session.advanceSyn, haccept, if_true]
          exact advances_syn hreader (.refl _) (by simp [SynPc.awaits]) rfl
            fun _ hj => hj
      | false =>
          simp only [Session.advanceSyn, haccept, Bool.false_eq_true, if_false]
          exact advances_offer hhand hreader haccept
  | withdraw i m =>
      refine advances_syn hreader ?_ (by simp [Session.advanceSyn, SynPc.awaits])
        rfl fun _ hj => hj
      refine (n.session.quietly_disown m).trans (Session.quietly_registry _ ?_)
      exact fun j l hget => (StreamRegistry.get_of_remove hget).1
  | refuse i =>
      exact .trans (advances_syn (r := (n.session.enqueue (.rst i), .idle))
        hreader (n.session.quietly_enqueue rfl) (by simp [SynPc.awaits]) rfl
        (by simp [SynPc.id?])) (advances_hand _ (.inl rfl))

/-- The reader marks a stream acknowledged. -/
theorem advances_mark {m : Ref} (hhand : n.hand = .mark m flags payload)
    (hack : flags.contains Flags.ack = true) :
    Advances n
      { n with
        process :=
          { n.process with
            shared := n.shared.onStream m StreamInner.markAcked }
        hand := .deliver m flags payload } := by
  by_cases hm : m < n.session.streams.length
  · have hlength : n.desk.ids.length = n.session.streams.length :=
      List.length_map _
    have hmarked : (n.shared.onStream m
        StreamInner.markAcked).session.acknowledged =
          Function.update n.session.acknowledged m true :=
      Session.acknowledged_mark hm rfl
    have hids : (n.shared.onStream m
        StreamInner.markAcked).session.streams.map Cell.id =
          n.session.streams.map Cell.id :=
      Keyed.map_key_modify m fun _ => rfl
    refine ⟨rfl, .tail (.single (.marked hhand hack (hlength ▸ hm))) ?_⟩
    refine (congrArg (DeskStep _ _) ?_).mpr
      (.handed (.inr ⟨m, flags, payload, rfl⟩))
    exact Desk.ext rfl rfl hids hmarked rfl rfl rfl rfl rfl rfl rfl rfl rfl
  · -- There is no such stream, and nothing is marked.
    have hlength : n.shared.session.streams.length ≤ m := not_lt.mp hm
    have hsame : n.shared.onStream m StreamInner.markAcked = n.shared := by
      rw [Shared.onStream, List.modify_eq_self hlength]
    rw [hsame]
    exact advances_hand n (.inr ⟨m, flags, payload, rfl⟩)

/-- The reader delivers the rest of a frame. -/
theorem advances_deliver {m : Ref} (hhand : n.hand = .deliver m flags payload) :
    Advances n n.readerStep := by
  simp only [readerStep, hhand]
  split
  · exact advances_hand n (.inl rfl)
  · rename_i c hc
    have hq : n.session.Quietly (n.session.update m
        { c with inner := (Session.deliverRest c.inner flags payload).2.1 }
        (Session.deliverRest c.inner flags payload).2.2) :=
      Session.quietly_update hc (c.inner.calm_deliverRest flags payload)
    have hdeliver := advances_quietly (p := n.process.withSession _) hq rfl rfl
      rfl
    split
    · exact hdeliver.trans (advances_hand _ (.inl rfl))
    · exact hdeliver.trans (advances_fail _ _)

/-- **A step of the reader on the frame it has in hand.** -/
theorem advances_readerStep (n : Node) : Advances n n.readerStep := by
  cases hhand : n.hand with
  | idle =>
      simp only [readerStep, hhand]
      exact .refl n
  | syn flags payload =>
      simp only [readerStep, hhand]
      exact advances_synStep hhand
  | lookup i flags payload =>
      cases hget : n.session.registry.get i with
      | none =>
          simp only [readerStep, hhand, hget]
          split
          · exact .trans (advances_quietly
              (p := n.process.withSession (n.session.enqueue (.rst i)))
              (n.session.quietly_enqueue rfl) rfl rfl rfl)
              (advances_hand _ (.inl rfl))
          · exact advances_hand n (.inl rfl)
      | some m =>
          simp only [readerStep, hhand, hget]
          exact .one rfl (.found hhand hget)
  | mark m flags payload =>
      simp only [readerStep, hhand]
      split
      · rename_i hack
        exact advances_mark hhand hack
      · exact advances_hand n (.inr ⟨m, flags, payload, rfl⟩)
  | deliver m flags payload => exact advances_deliver hhand

/-- **The reader gets a frame.** -/
theorem advances_receive (n : Node) (f : Frame) : Advances n (n.receive f) := by
  have hgot : Advances n { n with got := n.got ++ [f] } := by
    refine .one_of_eq rfl (.gotOther f) ?_
    exact Desk.ext rfl rfl rfl rfl rfl rfl rfl rfl rfl rfl rfl
      (coe_concat _ _) rfl
  cases f with
  | data i flags payload =>
      simp only [receive]
      split
      · exact hgot.trans (advances_fail _ _)
      · rename_i hid
        split
        · rename_i hsyn
          split
          · exact hgot.trans (advances_fail _ _)
          · rename_i hown
            have hpeer : n.session.role.peer.owns i = true :=
              Role.peer_owns hid (Bool.not_eq_true _ ▸ hown)
            refine .one_of_eq rfl (.gotSyn payload hsyn hpeer) ?_
            exact Desk.ext rfl rfl rfl rfl rfl rfl rfl rfl rfl rfl rfl
              (coe_concat _ _) rfl
        · refine .one_of_eq rfl (.gotData i flags payload) ?_
          exact Desk.ext rfl rfl rfl rfl rfl rfl rfl rfl rfl rfl rfl
            (coe_concat _ _) rfl
  | windowUpdate i flags delta =>
      exact hgot.trans (advances_quietly
        (n.session.quietly_handleWindowUpdate i delta) rfl rfl rfl)
  | ping flags nonce =>
      exact hgot.trans (advances_quietly
        (n.session.quietly_handlePing flags nonce) rfl rfl rfl)
  | goAway code =>
      obtain ⟨hq, hopens, hreader, haccepts⟩ :=
        (n.process.withSession n.session.notePeerGone).step_shutdown_quietly
          (some .reader) code
      have hgone : n.session.Quietly n.session.notePeerGone :=
        .plain rfl rfl rfl rfl rfl rfl
      exact hgot.trans (advances_quietly (hgone.trans hq) hopens hreader
        haccepts)

/-! ### All deeds -/

/-- The future of a call of `open()` is dropped. -/
theorem advances_openCancel (n : Node) (k : Nat) :
    Advances n (n.openCancel k) := by
  unfold openCancel
  split
  · rename_i i m hpc
    have hq : n.session.Quietly (n.session.openCancel m) := by
      unfold Session.openCancel
      split
      · exact .refl _
      · rename_i c hc
        exact Session.quietly_set (Session.pendingOpen_some hc).1 rfl
    have hsame : (n.session.openCancel m).registry = n.session.registry ∧
        (n.session.openCancel m).out = n.session.out := by
      unfold Session.openCancel
      split <;> exact ⟨rfl, rfl⟩
    refine .one_of_eq hq.role (.cancelled (coe_eraseIdx hpc)) ?_
    exact Desk.ext (congrArg StreamIdAllocator.next hq.idAlloc) hsame.1 hq.ids
      hq.acknowledged rfl rfl rfl (congrArg Chan.queue hq.accept) rfl
      (congrArg (fun out => (out.queue : Multiset Frame)) hsame.2) rfl rfl rfl
  · exact .refl n

theorem advances_act {a : Act} (ha : n.permits a = true) :
    Advances n (n.become (n.process.withSession (n.session.perform a))) := by
  refine advances_quietly ?_ rfl rfl rfl
  cases a with
  | pollRead m remaining => exact n.session.quietly_pollRead m remaining
  | pollWrite m buf => exact n.session.quietly_pollWrite m buf
  | shutdown m => exact n.session.quietly_pollShutdown m
  | reset m => exact n.session.quietly_reset m
  | drop m => exact n.session.quietly_dropHandle m
  | closerNext => exact n.session.quietly_closerNext
  | keepaliveTick => exact n.session.quietly_keepaliveTick
  | keepalivePong => exact n.session.quietly_keepalivePong
  | closerStop =>
      show n.session.Quietly n.session.closerStop
      unfold Session.closerStop
      split <;> exact .plain rfl rfl rfl rfl rfl rfl
  | keepaliveStop =>
      show n.session.Quietly n.session.keepaliveStop
      unfold Session.keepaliveStop
      split <;> exact .plain rfl rfl rfl rfl rfl rfl
  | writerStop =>
      show n.session.Quietly n.session.writerStop
      unfold Session.writerStop
      split <;> exact .plain rfl rfl rfl rfl rfl rfl
  | _ => cases ha

/-- **A deed of a node is a path of desk steps.** -/
theorem step_desk (n : Node) (d : Deed) : Advances n (n.step d) := by
  cases d with
  | move m =>
      simp only [step]
      split
      · rename_i hm
        exact advances_move hm
      · exact .refl n
  | openCancel k => exact n.advances_openCancel k
  | act a =>
      simp only [step]
      split
      · rename_i ha
        exact advances_act ha
      · exact .refl n
  | keepaliveTimeout =>
      simp only [step, keepaliveTimeout]
      split
      · refine advances_shutdown_quit ?_ .keepalive .timeout
        exact .plain rfl rfl rfl rfl rfl rfl
      · exact .refl n
  | reader => exact n.advances_readerStep

end Node

end NetMux
